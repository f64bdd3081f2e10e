import IconModules.Files.Path
import IconModules.Files.Tree

/-! # Where paths lead

Where no link has to be followed, a path says on its own where it leads.

* `Path.moves` are the directions of a path without those that lead nowhere; they alone decide where
  the path leads (`Path.walk`, `walk_steps`).
* Joining two paths joins their moves (`moves_join`), the parent of a path has all moves but the last
  (`moves_parent?`), and a path that ends in a name is the way to a folder and then that name
  (`steps_of_ending_name`).
* `Path.Under root names p` says that `p` goes on from `root` through the given names. -/

namespace IconModules

/-- A name that a part of a path can give to something in a folder. -/
def IsName (n : String) : Prop :=
  '/' ∉ n.toList ∧ Path.isIdle n = false ∧ n ≠ ".."

instance (n : String) : Decidable (IsName n) :=
  inferInstanceAs (Decidable (_ ∧ _ ∧ _))

theorem isName_of_noDot {n : String} (hslash : '/' ∉ n.toList) (hdot : '.' ∉ n.toList)
    (hne : n ≠ "") : IsName n := by
  refine ⟨hslash, ?_, ?_⟩
  · rw [Path.isIdle, Bool.or_eq_false_iff, beq_eq_false_iff_ne, beq_eq_false_iff_ne]
    refine ⟨hne, ?_⟩
    rintro rfl
    exact hdot (by decide)
  · rintro rfl
    exact hdot (by decide)

namespace Path

/-! ### Following directions -/

/-- Where a step leads. -/
def Step.next (here : Location) : Step → Location
  | .into n => here ++ [n]
  | .up => here.dropLast
  | .stay => here

/-- Where steps lead. -/
def walk (here : Location) (steps : List Step) : Location :=
  steps.foldl Step.next here

@[simp] theorem walk_nil (here : Location) : walk here [] = here := rfl

@[simp] theorem walk_cons (here : Location) (s : Step) (steps : List Step) :
    walk here (s :: steps) = walk (s.next here) steps := rfl

theorem walk_append (here : Location) (s t : List Step) :
    walk here (s ++ t) = walk (walk here s) t := List.foldl_append

@[simp] theorem walk_into (here : Location) (names : List String) :
    walk here (names.map .into) = here ++ names := by
  induction names generalizing here with
  | nil => simp
  | cons n names ih => simp [Step.next, ih]

/-- Every name on a way that was gone is one of its steps or stood before. -/
theorem mem_walk {here : Location} {steps : List Step} {n : String} (h : n ∈ walk here steps) :
    n ∈ here ∨ .into n ∈ steps := by
  induction steps generalizing here with
  | nil => exact .inl h
  | cons s steps ih =>
    rcases ih h with h | h
    · cases s with
      | into m =>
        rcases List.mem_append.1 h with h | h
        · exact .inl h
        · exact .inr (by simp [List.mem_singleton.1 h])
      | up => exact .inl (List.dropLast_subset _ h)
      | stay => exact .inl h
    · exact .inr (List.mem_cons_of_mem _ h)

/-! ### Moves -/

/-- The moves that some parts of a path stand for: what each part means, except for those that lead
nowhere. -/
def movesOf (parts : List String) : List Step :=
  (parts.map Step.ofPart).filter (· ≠ .stay)

/-- The directions of a path that lead somewhere. -/
def moves (p : Path) : List Step :=
  movesOf p.parts

theorem ofPart_of_isIdle {part : String} (h : isIdle part = true) : Step.ofPart part = .stay := by
  simp [Step.ofPart, h]

theorem ofPart_ne_stay {part : String} (h : isIdle part = false) : Step.ofPart part ≠ .stay := by
  unfold Step.ofPart
  rw [if_neg (by simp [h])]
  split <;> simp

theorem ofPart_of_isName {n : String} (h : IsName n) : Step.ofPart n = .into n := by
  unfold Step.ofPart
  rw [if_neg (by simp [h.2.1]), if_neg (by simpa using h.2.2)]

@[simp] theorem movesOf_nil : movesOf [] = [] := rfl

theorem movesOf_append (ps qs : List String) : movesOf (ps ++ qs) = movesOf ps ++ movesOf qs := by
  simp [movesOf]

theorem movesOf_singleton {part : String} (h : isIdle part = false) :
    movesOf [part] = [Step.ofPart part] := by
  simp [movesOf, ofPart_ne_stay h]

theorem movesOf_map_isName {names : List String} (h : ∀ n ∈ names, IsName n) :
    movesOf names = names.map .into := by
  induction names with
  | nil => rfl
  | cons n names ih =>
    have hn := h n List.mem_cons_self
    rw [← List.singleton_append, movesOf_append, movesOf_singleton hn.2.1, ofPart_of_isName hn,
      ih fun m hm => h m (List.mem_cons_of_mem _ hm)]
    rfl

/-- A name that parts lead through is one of them. -/
theorem mem_of_into_mem_movesOf {ps : List String} {n : String} (h : .into n ∈ movesOf ps) :
    n ∈ ps := by
  obtain ⟨part, hpart, he⟩ := List.mem_map.1 (List.mem_filter.1 h).1
  unfold Step.ofPart at he
  split at he
  · cases he
  · split at he
    · cases he
    · cases he
      exact hpart

theorem movesOf_of_all_idle {ps : List String} (h : ∀ q ∈ ps, isIdle q = true) :
    movesOf ps = [] := by
  rw [movesOf, List.filter_eq_nil_iff]
  intro s hs
  obtain ⟨q, hq, rfl⟩ := List.mem_map.1 hs
  simp [ofPart_of_isIdle (h q hq)]

/-- Parts are the ones that are kept and idle ones behind them. -/
theorem busy_append (ps : List String) :
    ∃ idle, (∀ q ∈ idle, isIdle q = true) ∧ ps = (busy ps).reverse ++ idle := by
  refine ⟨(ps.reverse.takeWhile isIdle).reverse, ?_, ?_⟩
  · intro q hq
    exact List.all_eq_true.1 List.all_takeWhile q (List.mem_reverse.1 hq)
  · rw [← List.reverse_append, busy, List.takeWhile_append_dropWhile, List.reverse_reverse]

/-- Idle parts at the end of a path do not count. -/
theorem movesOf_busy (ps : List String) : movesOf (busy ps).reverse = movesOf ps := by
  obtain ⟨idle, hidle, e⟩ := busy_append ps
  have e' := congrArg movesOf e
  rw [movesOf_append, movesOf_of_all_idle hidle, List.append_nil] at e'
  exact e'.symm

/-- The last part that is kept is not idle. -/
theorem notIdle_of_busy {ps rest : List String} {last : String} (h : busy ps = last :: rest) :
    isIdle last = false := by
  have hl := List.head?_dropWhile_not isIdle ps.reverse
  rw [← busy, h] at hl
  simpa using hl

/-- Directions that lead nowhere can be left out. -/
theorem walk_filter (here : Location) (steps : List Step) :
    walk here (steps.filter (· ≠ .stay)) = walk here steps := by
  induction steps generalizing here with
  | nil => rfl
  | cons s steps ih => cases s <;> simp [Step.next, ← ih]

theorem walk_steps (here : Location) (p : Path) : walk here p.steps = walk here p.moves :=
  (walk_filter here p.steps).symm

/-! ### Parts -/

/-- The pieces of a text that is cut at a character hold what the text holds, but not that
character. -/
theorem mem_of_mem_splitOn {c x : Char} {s q : List Char} (h : q ∈ s.splitOn c) (hx : x ∈ q) :
    x ∈ s ∧ x ≠ c := by
  induction s generalizing q with
  | nil => simp_all
  | cons y s ih =>
    rw [List.splitOn_cons_eq_if_modifyHead] at h
    obtain ⟨p, ps, hp⟩ := List.exists_cons_of_ne_nil (List.splitOn_ne_nil c s)
    have hrest : ∀ r ∈ p :: ps, x ∈ r → x ∈ y :: s ∧ x ≠ c := by
      intro r hr hxr
      exact (ih (hp ▸ hr) hxr).imp_left (List.mem_cons_of_mem _)
    split at h
    · rcases List.mem_cons.1 h with rfl | h
      · exact absurd hx List.not_mem_nil
      · exact hrest q (hp ▸ h) hx
    · rename_i hy
      rw [hp, List.modifyHead_cons] at h
      rcases List.mem_cons.1 h with rfl | h
      · rcases List.mem_cons.1 hx with rfl | hx
        · exact ⟨List.mem_cons_self, by simpa using hy⟩
        · exact hrest p List.mem_cons_self hx
      · exact hrest q (List.mem_cons_of_mem _ h) hx

/-- No part of a path holds a slash. -/
theorem noSlash_of_mem_parts {p : Path} {part : String} (h : part ∈ p.parts) :
    '/' ∉ part.toList := by
  obtain ⟨q, hq, rfl⟩ := List.mem_map.1 h
  rw [String.toList_ofList]
  exact fun hslash => (mem_of_mem_splitOn hq hslash).2 rfl

theorem parts_ne_nil (p : Path) : p.parts ≠ [] := by
  simp [parts]

/-- What stands in front of a slash and what stands behind it are read on their own. -/
theorem parts_append_slash (s t : String) :
    (⟨s ++ "/" ++ t⟩ : Path).parts = (⟨s⟩ : Path).parts ++ (⟨t⟩ : Path).parts := by
  have e : (s ++ "/" ++ t).toList = s.toList ++ '/' :: t.toList := by simp
  simp only [parts]
  rw [e, List.splitOn_append_cons_self, List.map_append]

/-- A text without slashes is one part. -/
theorem parts_of_noSlash {s : String} (h : '/' ∉ s.toList) : (⟨s⟩ : Path).parts = [s] := by
  simp [parts, List.splitOn_eq_singleton h]

/-- Parts that are written with slashes between them are read again. -/
theorem parts_intercalate {ps : List String} (h : ∀ p ∈ ps, '/' ∉ p.toList) (hne : ps ≠ []) :
    (⟨"/".intercalate ps⟩ : Path).parts = ps := by
  have hs : ∀ l ∈ ps.map String.toList, '/' ∉ l := by
    intro l hl
    obtain ⟨q, hq, rfl⟩ := List.mem_map.1 hl
    exact h q hq
  have e : ("/".intercalate ps).toList = ['/'].intercalate (ps.map String.toList) := by simp
  simp only [parts]
  rw [e, List.splitOn_intercalate '/' hs (by simpa using hne), List.map_map]
  simp [Function.comp_def]

/-- The text that the first part of a path is cut from: a path from the root has an empty one. -/
theorem isAbsolute_iff_head_parts {p : Path} (h : p.text ≠ "") :
    p.isAbsolute = true ↔ p.parts.head? = some "" := by
  obtain ⟨text⟩ := p
  rcases hl : text.toList with _ | ⟨c, cs⟩
  · exact absurd (String.toList_eq_nil_iff.1 hl) h
  · obtain ⟨q, qs, hq⟩ := List.exists_cons_of_ne_nil (List.splitOn_ne_nil '/' cs)
    simp only [isAbsolute, parts, hl, List.splitOn_cons_eq_if_modifyHead, hq]
    by_cases hc : c = '/' <;> simp [hc]

/-! ### Joining -/

theorem moves_empty : (⟨""⟩ : Path).moves = [] := by decide

theorem moves_append_slash (s t : String) :
    (⟨s ++ "/" ++ t⟩ : Path).moves = (⟨s⟩ : Path).moves ++ (⟨t⟩ : Path).moves := by
  rw [moves, parts_append_slash, movesOf_append]
  rfl

/-- How a path is written with a relative one behind it. -/
theorem join_cases (p : Path) {q : Path} (h : q.isAbsolute = false) :
    p.text = "" ∧ p.join q = q ∨
      (∃ s, p.text = s ++ "/" ∧ p.join q = ⟨s ++ "/" ++ q.text⟩) ∨
      p.text ≠ "" ∧ p.join q = ⟨p.text ++ "/" ++ q.text⟩ := by
  obtain ⟨text⟩ := p
  have hj : (⟨text⟩ : Path).join q = ⟨text ++ (⟨text⟩ : Path).divider ++ q.text⟩ := by
    simp [join, h]
  rw [hj]
  rcases List.eq_nil_or_concat text.toList with hl | ⟨cs, c, hl⟩
  · have ht : text = "" := String.toList_eq_nil_iff.1 hl
    subst ht
    exact .inl ⟨rfl, by simp [divider]⟩
  · have ht : text ≠ "" := by
      intro e
      subst e
      simp at hl
    right
    by_cases hc : c = '/'
    · subst hc
      refine .inl ⟨String.ofList cs, ?_, ?_⟩
      · rw [← String.toList_inj]
        simpa using hl
      · have e : text = String.ofList cs ++ "/" := by
          rw [← String.toList_inj]
          simpa using hl
        simp [divider, e]
    · refine .inr ⟨ht, ?_⟩
      simp [divider, hl, hc]

theorem moves_slash (s : String) : (⟨s ++ "/"⟩ : Path).moves = (⟨s⟩ : Path).moves := by
  have e := moves_append_slash s ""
  rwa [moves_empty, List.append_nil, String.append_empty] at e

/-- The moves of a path come before those of the path joined to it. -/
theorem moves_join (p : Path) {q : Path} (h : q.isAbsolute = false) :
    (p.join q).moves = p.moves ++ q.moves := by
  obtain ⟨text⟩ := p
  rcases join_cases ⟨text⟩ h with ⟨ht, e⟩ | ⟨s, ht, e⟩ | ⟨-, e⟩
  · simp only at ht
    subst ht
    rw [e, moves_empty, List.nil_append]
  · simp only at ht
    subst ht
    rw [e, moves_append_slash, moves_slash]
  · rw [e, moves_append_slash]

theorem isAbsolute_append {s t : String} (h : s ≠ "") :
    (⟨s ++ t⟩ : Path).isAbsolute = (⟨s⟩ : Path).isAbsolute := by
  rcases hl : s.toList with _ | ⟨c, cs⟩
  · exact absurd (String.toList_eq_nil_iff.1 hl) h
  · simp [isAbsolute, hl]

/-- A path with a relative one behind it begins where it began. -/
theorem isAbsolute_join (p : Path) {q : Path} (h : q.isAbsolute = false) :
    (p.join q).isAbsolute = p.isAbsolute := by
  obtain ⟨text⟩ := p
  rcases join_cases ⟨text⟩ h with ⟨ht, e⟩ | ⟨s, ht, e⟩ | ⟨ht, e⟩
  · simp only at ht
    subst ht
    rw [e, h]
    rfl
  · simp only at ht
    subst ht
    rw [e, isAbsolute_append (by simp)]
  · rw [e, String.append_assoc, isAbsolute_append ht]

/-- The last part of a path with another one behind it is the last part of that one. -/
theorem getLast?_parts_join (p : Path) {q : Path} (h : q.isAbsolute = false) :
    (p.join q).parts.getLast? = q.parts.getLast? := by
  have hq : q.parts.getLast? ≠ none := by simp [parts_ne_nil]
  rcases join_cases p h with ⟨-, e⟩ | ⟨s, -, e⟩ | ⟨-, e⟩
  · rw [e]
  · rw [e, parts_append_slash, List.getLast?_append]
    cases hl : q.parts.getLast? with
    | none => exact absurd hl hq
    | some n => rfl
  · rw [e, parts_append_slash, List.getLast?_append]
    cases hl : q.parts.getLast? with
    | none => exact absurd hl hq
    | some n => rfl

/-! ### Parents -/

theorem lead_append (p : Path) : p.parts = p.lead ++ p.parts.drop p.lead.length := by
  unfold lead
  split
  · rename_i h
    have ht : p.text ≠ "" := by
      intro e
      simp [isAbsolute, e] at h
    obtain ⟨q, qs, hq⟩ := List.exists_cons_of_ne_nil p.parts_ne_nil
    have hh := (isAbsolute_iff_head_parts ht).1 h
    rw [hq] at hh ⊢
    simpa using hh
  · split
    · rename_i h
      obtain ⟨q, qs, hq⟩ := List.exists_cons_of_ne_nil p.parts_ne_nil
      rw [hq] at h ⊢
      simpa using h
    · simp

theorem head?_lead (p : Path) : p.lead.head? = some "" ↔ p.isAbsolute = true := by
  unfold lead
  split
  · rename_i h
    simp [h]
  · rename_i h
    split <;> simp [h]

theorem movesOf_lead (p : Path) : movesOf p.lead = [] := by
  unfold lead
  split
  · decide
  · split <;> decide

theorem moves_eq_drop_lead (p : Path) : p.moves = movesOf (p.parts.drop p.lead.length) := by
  rw [moves]
  conv => lhs; rw [lead_append p]
  rw [movesOf_append, movesOf_lead, List.nil_append]

theorem moves_ofParts {ps : List String} (h : ∀ q ∈ ps, '/' ∉ q.toList) :
    (ofParts ps).moves = movesOf ps := by
  unfold ofParts
  split
  · rename_i e
    subst e
    decide
  · cases ps with
    | nil => exact moves_empty
    | cons q qs => rw [moves, parts_intercalate h (by simp)]

theorem isAbsolute_ofParts {ps : List String} (h : ∀ q ∈ ps, '/' ∉ q.toList) :
    (ofParts ps).isAbsolute = true ↔ ps.head? = some "" := by
  unfold ofParts
  split
  · rename_i e
    subst e
    decide
  · rename_i e
    cases ps with
    | nil => decide
    | cons q qs =>
      by_cases ht : "/".intercalate (q :: qs) = ""
      · have hq : qs = [] := by
          cases qs with
          | nil => rfl
          | cons r qs => simp at ht
        subst hq
        simp only [String.intercalate_singleton] at ht
        exact absurd (by rw [ht]) e
      · have hh := isAbsolute_iff_head_parts (p := ⟨"/".intercalate (q :: qs)⟩) ht
        rw [parts_intercalate h (by simp)] at hh
        exact hh

/-- The parent of a path has all its moves but the last. -/
theorem moves_parent? {p above : Path} (h : p.parent? = some above) :
    above.isAbsolute = p.isAbsolute ∧ above.moves = p.moves.dropLast := by
  have hp := lead_append p
  unfold parent? at h
  split at h
  · rename_i last rest hb
    obtain rfl : ofParts (p.lead ++ (busy rest.reverse).reverse) = above := by simpa using h
    obtain ⟨idle, -, hD⟩ := busy_append (p.parts.drop p.lead.length)
    obtain ⟨idle', -, hR⟩ := busy_append rest.reverse
    rw [hb, List.reverse_cons, hR] at hD
    have hleft : ∀ q ∈ (busy rest.reverse).reverse, q ∈ p.parts.drop p.lead.length := by
      intro q hq
      rw [hD, List.append_assoc, List.append_assoc]
      exact List.mem_append_left _ hq
    have hslash : ∀ q ∈ p.lead ++ (busy rest.reverse).reverse, '/' ∉ q.toList := by
      intro q hq
      refine noSlash_of_mem_parts (p := p) ?_
      rw [hp]
      exact List.mem_append.2 ((List.mem_append.1 hq).imp_right (hleft q))
    constructor
    · rw [Bool.eq_iff_iff, isAbsolute_ofParts hslash, ← head?_lead]
      cases hl : p.lead with
      | cons x xs => simp
      | nil =>
        rw [hl] at hp hD
        refine ⟨fun hh => ?_, fun hh => absurd hh (by simp)⟩
        have hne : p.text ≠ "" := by
          intro e
          have hbusy : busy ((⟨""⟩ : Path).parts.drop (⟨""⟩ : Path).lead.length) = [] := by decide
          rw [← e, hb] at hbusy
          exact absurd hbusy (by simp)
        have hfirst : p.parts.head? = some "" := by
          rw [hp, List.nil_append, hD, List.append_assoc, List.append_assoc, List.head?_append]
          rw [List.nil_append] at hh
          rw [hh]
          rfl
        rw [← hl, head?_lead, isAbsolute_iff_head_parts hne]
        exact hfirst
    · have hm : p.moves = movesOf rest.reverse ++ movesOf [last] := by
        have e := movesOf_busy (p.parts.drop p.lead.length)
        rw [hb, List.reverse_cons, movesOf_append] at e
        rw [moves_eq_drop_lead, e]
      rw [moves_ofParts hslash, movesOf_append, movesOf_lead, movesOf_busy, hm,
        movesOf_singleton (notIdle_of_busy hb), List.dropLast_concat, List.nil_append]
  · rename_i hb
    split at h
    · rename_i hl
      obtain rfl : (⟨""⟩ : Path) = above := by simpa using h
      constructor
      · by_cases ha : p.isAbsolute = true
        · simp [lead, ha] at hl
        · rw [Bool.not_eq_true] at ha
          rw [ha]
          rfl
      · have e := movesOf_busy (p.parts.drop p.lead.length)
        rw [hb] at e
        rw [moves_eq_drop_lead p, ← e]
        decide
    · simp at h

/-! ### Endings -/

/-- Parts are those up to the last that is not empty, and empty ones behind them. -/
theorem exists_replicate_append (ps : List String) :
    ∃ k, ps = (ps.reverse.dropWhile (· == "")).reverse ++ List.replicate k "" := by
  refine ⟨(ps.reverse.takeWhile (· == "")).length, ?_⟩
  have hall : ps.reverse.takeWhile (· == "") =
      List.replicate (ps.reverse.takeWhile (· == "")).length "" := by
    rw [List.eq_replicate_iff]
    refine ⟨rfl, fun q hq => ?_⟩
    simpa using List.all_eq_true.1 List.all_takeWhile q hq
  have e := List.takeWhile_append_dropWhile (p := (· == "")) (l := ps.reverse)
  rw [hall] at e
  have e' := congrArg List.reverse e
  rw [List.reverse_append, List.reverse_replicate, List.reverse_reverse] at e'
  exact e'.symm

/-- A path that ends in a name is the way to a folder, the name, and slashes. -/
theorem steps_of_ending_name {p : Path} {n : String} (h : p.approach.ending = .name n) :
    IsName n ∧ ∃ k, p.steps = p.approach.steps ++ .into n :: List.replicate k .stay := by
  obtain ⟨k, hk⟩ := exists_replicate_append p.parts
  have hhead := List.head?_dropWhile_not (fun x : String => x == "") p.parts.reverse
  unfold approach at h ⊢
  cases hd : p.parts.reverse.dropWhile (· == "") with
  | nil => simp [hd] at h
  | cons last rest =>
    rw [hd] at hk hhead h
    have hslash : '/' ∉ last.toList := by
      refine noSlash_of_mem_parts (p := p) ?_
      rw [hk]
      simp
    have hne : last ≠ "" := by simpa using hhead
    simp only [Ending.ofPart] at h
    split at h
    · exact absurd h (by simp)
    · rename_i hdot
      split at h
      · exact absurd h (by simp)
      · rename_i hup
        obtain rfl : last = n := by simpa using h
        have hname : IsName last := by
          refine ⟨hslash, ?_, by simpa using hup⟩
          simp [isIdle, hne]
          simpa using hdot
        refine ⟨hname, k, ?_⟩
        unfold steps
        rw [hk]
        simp [ofPart_of_isName hname, ofPart_of_isIdle (show isIdle "" = true by decide)]

/-- Where a path leads that ends in a name. -/
theorem walk_of_ending_name {p : Path} {n : String} (h : p.approach.ending = .name n)
    (here : Location) : walk here p.steps = walk here p.approach.steps ++ [n] := by
  obtain ⟨-, k, e⟩ := steps_of_ending_name h
  rw [e, walk_append, walk_cons, ← walk_filter]
  simp [Step.next]

theorem ending_ofPart_of_isName {n : String} (h : IsName n) : Ending.ofPart n = .name n := by
  have hdot : n ≠ "." := by
    intro e
    exact absurd h.2.1 (by rw [e]; decide)
  unfold Ending.ofPart
  rw [if_neg (by simpa using hdot), if_neg (by simpa using h.2.2)]

/-- A text that ends in a slash has an empty last part. -/
theorem slashed_eq_false_of_getLast?_parts {p : Path} {n : String}
    (h : p.parts.getLast? = some n) (hn : n ≠ "") :
    (p.text.toList.getLast? == some '/') = false := by
  rw [beq_eq_false_iff_ne]
  intro hlast
  obtain ⟨cs, hcs⟩ := List.getLast?_eq_some_iff.1 hlast
  have e : p = ⟨String.ofList cs ++ "/" ++ ""⟩ := by
    obtain ⟨text⟩ := p
    simp only at hcs
    rw [Path.mk.injEq, ← String.toList_inj]
    simpa using hcs
  rw [e, parts_append_slash, List.getLast?_append] at h
  have hempty : (⟨""⟩ : Path).parts.getLast? = some "" := by decide
  rw [hempty] at h
  exact hn (by simpa using h.symm)

/-- A path whose last part is a name is the way to a folder and that name. -/
theorem approach_of_getLast?_parts {p : Path} {n : String} (hn : IsName n)
    (hlast : p.parts.getLast? = some n) : p.approach.ending = .name n ∧
      p.approach.slashed = false ∧ p.steps = p.approach.steps ++ [.into n] := by
  have hne : n ≠ "" := by
    intro e
    exact absurd hn.2.1 (by rw [e]; decide)
  obtain ⟨ps, hps⟩ := List.getLast?_eq_some_iff.1 hlast
  have hd : p.parts.reverse.dropWhile (· == "") = n :: ps.reverse := by
    rw [hps]
    simp [hne]
  refine ⟨?_, ?_, ?_⟩
  · unfold Path.approach
    rw [hd]
    exact ending_ofPart_of_isName hn
  · unfold Path.approach
    rw [hd]
    exact slashed_eq_false_of_getLast?_parts hlast hne
  · unfold Path.approach steps
    rw [hd, hps]
    simp [ofPart_of_isName hn]

/-! ### Paths under a root -/

/-- A path that goes on from `root` through names, perhaps with idle parts. -/
structure Along (root : Path) (names : List String) (p : Path) : Prop where
  isAbsolute : p.isAbsolute = root.isAbsolute
  moves : p.moves = root.moves ++ names.map .into
  isName : ∀ n ∈ names, IsName n

/-- A path that goes on from `root` through names and ends in the last of them. -/
structure Under (root : Path) (names : List String) (p : Path) : Prop extends
    Along root names p where
  last : ∃ n, names.getLast? = some n ∧ p.parts.getLast? = some n

theorem Along.refl (root : Path) : Along root [] root :=
  ⟨rfl, by simp, by simp⟩

variable {root p q above : Path} {names more : List String} {n : String}

theorem under_name (h : IsName n) : Under ⟨""⟩ [n] ⟨n⟩ where
  isAbsolute := by
    have e := parts_of_noSlash h.1
    by_cases hn : n = ""
    · rw [hn]
    · rw [Bool.eq_iff_iff, isAbsolute_iff_head_parts hn, e]
      simp [hn, isAbsolute]
  moves := by
    rw [moves, parts_of_noSlash h.1, movesOf_singleton h.2.1, ofPart_of_isName h, moves_empty]
    rfl
  isName := by simpa using h
  last := ⟨n, rfl, by rw [parts_of_noSlash h.1]; rfl⟩

/-- A relative path through names can be put behind any path. -/
theorem Along.join (hp : Along root names p) (hq : Under ⟨""⟩ more q) :
    Under root (names ++ more) (p.join q) where
  isAbsolute := by
    rw [isAbsolute_join p hq.isAbsolute, hp.isAbsolute]
  moves := by
    rw [moves_join p hq.isAbsolute, hp.moves, hq.moves, moves_empty]
    simp
  isName m hm := by
    rcases List.mem_append.1 hm with h | h
    · exact hp.isName m h
    · exact hq.isName m h
  last := by
    obtain ⟨n, h1, h2⟩ := hq.last
    refine ⟨n, ?_, ?_⟩
    · rw [List.getLast?_append, h1]
      rfl
    · rw [getLast?_parts_join p hq.isAbsolute, h2]

theorem Along.under (hp : Along root names p) (hn : IsName n) :
    Under root (names ++ [n]) (p.under n) :=
  hp.join (under_name hn)

/-- A path all of whose parts are names is relative and goes through them. -/
theorem under_parts (h : ∀ n ∈ p.parts, IsName n) : Under ⟨""⟩ p.parts p where
  isAbsolute := by
    obtain ⟨q, qs, hq⟩ := List.exists_cons_of_ne_nil p.parts_ne_nil
    have hne : q ≠ "" := by
      rintro rfl
      exact absurd (h "" (by simp [hq])).2.1 (by decide)
    by_cases ht : p.text = ""
    · obtain rfl : p = ⟨""⟩ := by
        cases p
        exact congrArg Path.mk ht
      rfl
    · rw [Bool.eq_iff_iff, isAbsolute_iff_head_parts ht, hq]
      simp [hne, Path.isAbsolute]
  moves := by
    rw [moves_empty, List.nil_append, Path.moves, movesOf_map_isName h]
  isName := h
  last := by
    obtain ⟨n, hn⟩ := Option.ne_none_iff_exists'.1
      (fun hnone => p.parts_ne_nil (List.getLast?_eq_none_iff.1 hnone))
    exact ⟨n, hn, hn⟩

/-- The parent of a path goes through all its names but the last. -/
theorem Under.parent? (hp : Under root names p) (h : p.parent? = some above) :
    Along root names.dropLast above where
  isAbsolute := by
    rw [(moves_parent? h).1, hp.isAbsolute]
  moves := by
    obtain ⟨n, hn, -⟩ := hp.last
    have hne : names.map Step.into ≠ [] := by
      intro e
      simp [List.map_eq_nil_iff.1 e] at hn
    rw [(moves_parent? h).2, hp.moves, List.dropLast_append_of_ne_nil hne, List.map_dropLast]
  isName m hm := hp.isName m ((List.dropLast_sublist _).mem hm)

/-- A path under a root ends in the last of its names. -/
theorem Under.approach (hp : Under root (names ++ [n]) p) :
    p.approach.ending = .name n ∧ p.approach.slashed = false ∧
      p.steps = p.approach.steps ++ [.into n] := by
  obtain ⟨m, hm, hlast⟩ := hp.last
  obtain rfl : n = m := by simpa using hm
  exact approach_of_getLast?_parts (hp.isName n (by simp)) hlast

end Path
end IconModules
