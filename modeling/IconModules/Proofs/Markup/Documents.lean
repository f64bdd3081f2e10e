import IconModules.Proofs.Markup.Stretches
import IconModules.Settings.Presets
import IconModules.Text.Blank

/-! # Stripping well-formed documents

* A `Document` is a declaration, comments and an element, with all the elements, attributes and texts in it.
  Its types admit only names and texts in which no character has a meaning in markup.
* `Content.write gone` writes elements with a space in the place of every attribute whose name is in `gone`.
* No pass mistakes one thing for another: declaration and comments are taken out as they were written
  (`run_tagLine`), there is no block to take out (`withoutBlock_write`), and the pass for one attribute takes
  out the attributes of that name (`replaceSpans_write`).
* So stripping a document leaves its root element without the attributes of the denylist
  (`strip_document`). -/

namespace IconModules

namespace Markup

open Text (Silent eq_of_append_cons wordSpan head?_of_wordSpan wordSpan_eq_none_iff)

/-! ### Documents -/

/-- Characters that names are made of: no blanks, and none that has a meaning in markup. Letters, digits and
`-`, `_`, `:`, `.` are among them. -/
def isNameChar (c : Char) : Bool :=
  !Text.isBlank c && !(['"', '<', '>', '=', '/', '!', '?'].contains c)

/-- Characters that texts and values are made of. -/
def isTextChar (c : Char) : Bool :=
  !(['"', '<', '>'].contains c)

/-- The name of an element or an attribute. -/
structure Name where
  text : String
  nonempty : text ≠ "" := by decide
  plain : text.toList.all isNameChar = true := by decide

/-- An attribute. Its value does not end with an equals sign. -/
structure Attribute where
  name : Name
  value : String
  plain : value.toList.all isTextChar = true := by decide
  closed : value.toList.getLast? ≠ some '=' := by decide

/-- What stands in the opening tag of an element, which is neither a definition block nor a clipping path. -/
structure Tag where
  name : Name
  attributes : List Attribute
  kept : name.text ≠ "defs" ∧ name.text ≠ "clipPath" := by decide

/-- A piece of text between tags. -/
structure PlainText where
  text : String
  plain : text.toList.all isTextChar = true := by decide

/-- What stands between two tags: texts, elements of one closed tag, and elements around more content. -/
inductive Content where
  | nothing
  | text (t : PlainText) (rest : Content)
  | closed (tag : Tag) (rest : Content)
  | around (tag : Tag) (inner rest : Content)

/-- An element: one closed tag, or two tags around some content. -/
structure Element where
  tag : Tag
  inner : Option Content

/-- The inside of a declaration or a comment. -/
structure Remark where
  text : String
  nonempty : text ≠ "" := by decide
  plain : '<' ∉ text.toList ∧ '>' ∉ text.toList := by decide

/-- A document: a declaration, if there is one, comments and the root element. -/
structure Document where
  declaration : Option Remark
  comments : List Remark
  root : Element

/-! ### How documents are written -/

/-- The attribute with a space in front; only the space if its name is in `gone`. -/
def Attribute.write (gone : List String) (a : Attribute) : List Char :=
  if a.name.text ∈ gone then [' ']
  else ' ' :: (a.name.text.toList ++ '=' :: '"' :: (a.value.toList ++ ['"']))

/-- The attributes of a tag. -/
def Tag.writeAttributes (gone : List String) (t : Tag) : List Char :=
  t.attributes.flatMap (·.write gone)

/-- The content, with a space in the place of every attribute whose name is in `gone`. -/
def Content.write (gone : List String) : Content → List Char
  | .nothing => []
  | .text t rest => t.text.toList ++ rest.write gone
  | .closed tag rest =>
    '<' :: (tag.name.text.toList ++ (tag.writeAttributes gone ++ '/' :: '>' :: rest.write gone))
  | .around tag inner rest =>
    '<' :: (tag.name.text.toList ++ (tag.writeAttributes gone ++ '>' :: (inner.write gone ++
      '<' :: '/' :: (tag.name.text.toList ++ '>' :: rest.write gone))))

theorem Content.write_text (gone : List String) (t : PlainText) (rest : Content) (v : List Char) :
    (Content.text t rest).write gone ++ v = t.text.toList ++ (rest.write gone ++ v) :=
  List.append_assoc ..

theorem Content.write_closed (gone : List String) (tag : Tag) (rest : Content) (v : List Char) :
    (Content.closed tag rest).write gone ++ v =
      '<' :: tag.name.text.toList ++ (tag.writeAttributes gone ++
        (['/', '>'] ++ (rest.write gone ++ v))) := by
  simp [Content.write]

theorem Content.write_around (gone : List String) (tag : Tag) (inner rest : Content)
    (v : List Char) : (Content.around tag inner rest).write gone ++ v =
      '<' :: tag.name.text.toList ++ (tag.writeAttributes gone ++ (['>'] ++ (inner.write gone ++
        ('<' :: '/' :: (tag.name.text.toList ++ ['>']) ++ (rest.write gone ++ v))))) := by
  simp [Content.write]

/-- The element on its own. -/
def Element.content (e : Element) : Content :=
  match e.inner with
  | none => .closed e.tag .nothing
  | some inner => .around e.tag inner .nothing

/-- The element without the attributes whose names are in `gone`: a space is left for each of them. -/
def Element.text (gone : List String) (e : Element) : String :=
  String.ofList (e.content.write gone)

/-- A tag that has a line's end to itself. -/
def Remark.write (opening : List Char) (r : Remark) : List Char :=
  opening ++ r.text.toList ++ ['>', '\n']

/-- The document as it is served. -/
def Document.text (d : Document) : String :=
  String.ofList <| d.declaration.toList.flatMap (·.write "<?xml".toList) ++
    (d.comments.flatMap (·.write "<!--".toList) ++ d.root.content.write [])

/-! ### Characters -/

variable {gone denylist : List String} {name opening a b s t v word : List Char} {c x : Char}
  {content : Content}

theorem Name.not_mem (n : Name) (hc : isNameChar c = false) : c ∉ n.text.toList := by
  intro hm
  rw [List.all_eq_true.1 n.plain c hm] at hc
  cases hc

theorem PlainText.not_mem (t : PlainText) (hc : isTextChar c = false) : c ∉ t.text.toList := by
  intro hm
  rw [List.all_eq_true.1 t.plain c hm] at hc
  cases hc

theorem Attribute.not_mem (a : Attribute) (hc : isTextChar c = false) : c ∉ a.value.toList := by
  intro hm
  rw [List.all_eq_true.1 a.plain c hm] at hc
  cases hc

theorem Name.exists_cons (n : Name) : ∃ y ys, n.text.toList = y :: ys ∧ isNameChar y = true := by
  cases h : n.text.toList with
  | nil => exact absurd (String.toList_eq_nil_iff.1 h) n.nonempty
  | cons y ys => exact ⟨y, ys, rfl, List.all_eq_true.1 n.plain y (by simp [h])⟩

theorem lengthTo_append (h : x ∉ a) : lengthTo x (a ++ x :: s) = some a.length := by
  induction a with
  | nil => simp [lengthTo, List.findIdx?_cons]
  | cons y a ih =>
    rw [List.mem_cons, not_or] at h
    have hy : (y == x) = false := by simpa using Ne.symm h.1
    have hrest := ih h.2
    unfold lengthTo at hrest ⊢
    rw [List.cons_append, List.findIdx?_cons, hy, hrest]
    rfl

/-! ### Words that do not occur -/

/-- No attribute is written with the beginning of a tag. -/
theorem not_mem_writeAttributes (t : Tag) : '<' ∉ t.writeAttributes gone := by
  intro hm
  obtain ⟨a, -, hm⟩ := List.mem_flatMap.1 hm
  have hname := a.name.not_mem (c := '<') (by decide)
  have hvalue := a.not_mem (c := '<') (by decide)
  unfold Attribute.write at hm
  split at hm <;> simp_all

/-- A word that begins as a tag occurs nowhere in some content if no tag begins with it. -/
theorem silent_write
    (hopen : ∀ (n : Name) s, ¬ '<' :: word <+: '<' :: (n.text.toList ++ s))
    (hclose : ∀ (t : Tag) s, ¬ '<' :: word <+: '<' :: '/' :: (t.name.text.toList ++ '>' :: s))
    (content : Content) (v : List Char) :
    Silent (wordSpan ('<' :: word)) (content.write gone) v := by
  -- tags begin nowhere else
  have hquiet : ∀ {u v}, '<' ∉ u → Silent (wordSpan ('<' :: word)) u v := fun hu =>
    Text.silent_of_not_mem (fun _ => head?_of_wordSpan) hu
  have hskip : ∀ {c s}, c ≠ '<' → wordSpan ('<' :: word) (c :: s) = none := by
    intro c s hc
    have hsilent : Silent (wordSpan ('<' :: word)) [c] s := hquiet (by simpa using hc.symm)
    exact (Text.silent_cons_iff.1 hsilent).1
  have hname : ∀ {n : Name} {v}, Silent (wordSpan ('<' :: word)) n.text.toList v := fun {n} {_} =>
    hquiet (n.not_mem (by decide))
  induction content generalizing v with
  | nothing => exact Text.silent_nil
  | text t rest ih =>
    exact Text.silent_append_iff.2 ⟨hquiet (t.not_mem (by decide)), ih v⟩
  | closed tag rest ih =>
    simp only [Content.write, Text.silent_cons_iff, Text.silent_append_iff, List.append_assoc]
    exact ⟨wordSpan_eq_none_iff.2 (hopen _ _), hname, hquiet (not_mem_writeAttributes tag),
      hskip (by decide), hskip (by decide), ih v⟩
  | around tag inner rest ihInner ihRest =>
    simp only [Content.write, Text.silent_cons_iff, Text.silent_append_iff, List.append_assoc,
      List.cons_append]
    exact ⟨wordSpan_eq_none_iff.2 (hopen _ _), hname, hquiet (not_mem_writeAttributes tag),
      hskip (by decide), ihInner _, wordSpan_eq_none_iff.2 (hclose _ _), hskip (by decide), hname,
      hskip (by decide), ihRest v⟩

/-- Tags begin with a name or a slash. -/
theorem silent_write_of_foreign (hx : isNameChar x = false) (hslash : x ≠ '/') (content : Content)
    (v : List Char) : Silent (wordSpan ('<' :: x :: word)) (content.write gone) v := by
  refine silent_write (fun n s h => ?_) (fun t s h => ?_) content v
  · obtain ⟨y, ys, hy, hplain⟩ := n.exists_cons
    rw [hy, List.cons_append, List.cons_prefix_cons, List.cons_prefix_cons] at h
    rw [h.2.1, hplain] at hx
    cases hx
  · rw [List.cons_prefix_cons, List.cons_prefix_cons] at h
    exact hslash h.2.1

/-- Closing tags have the names of elements. -/
theorem silent_write_closing (hname : '>' ∉ name) (ht : ∀ t : Tag, t.name.text.toList ≠ name)
    (content : Content) (v : List Char) :
    Silent (wordSpan ('<' :: '/' :: (name ++ ['>']))) (content.write gone) v := by
  refine silent_write (fun n s h => ?_) (fun t s h => ?_) content v
  · obtain ⟨y, ys, hy, hplain⟩ := n.exists_cons
    rw [hy, List.cons_append, List.cons_prefix_cons, List.cons_prefix_cons] at h
    rw [← h.2.1] at hplain
    exact absurd hplain (by decide)
  · rw [List.cons_prefix_cons, List.cons_prefix_cons] at h
    obtain ⟨rest, hrest⟩ := h.2.2
    rw [List.append_assoc, List.singleton_append] at hrest
    exact ht t (eq_of_append_cons hname (t.name.not_mem (by decide)) hrest).1.symm

/-! ### Tags that have a line to themselves -/

theorem tagLine_eq_none_of_wordSpan (h : wordSpan opening s = none) : tagLine opening s = none := by
  unfold tagLine
  rw [if_neg]
  rw [List.isPrefixOf_iff_prefix]
  exact wordSpan_eq_none_iff.1 h

/-- A declaration or a comment is a stretch. -/
theorem tagLine_write (r : Remark) :
    tagLine opening (r.write opening ++ s) = some (r.write opening).length := by
  have hlength : lengthTo '>' (r.text.toList ++ '>' :: '\n' :: s) = some r.text.toList.length :=
    lengthTo_append r.plain.2
  obtain ⟨n, hn⟩ := Nat.exists_eq_add_one.2
    (List.length_pos_iff.2 (mt String.toList_eq_nil_iff.1 r.nonempty))
  have hdrop : (r.write opening ++ s).drop opening.length = r.text.toList ++ '>' :: '\n' :: s := by
    simp [Remark.write]
  have hbreak : (r.write opening ++ s).drop (opening.length + (n + 2)) = '\n' :: s := by
    have hlast : n + 2 = r.text.toList.length + 1 := by omega
    rw [← List.drop_drop, hdrop, hlast, ← List.drop_drop, List.drop_left]
    rfl
  unfold tagLine
  rw [if_pos, hdrop, hlength, hn]
  · dsimp only
    rw [hbreak]
    simp [Remark.write, hn]
  · simp [Remark.write]

/-- Declarations and comments are taken out as they were written. -/
theorem run_tagLine (rs : List Remark) (s : List Char) :
    (Pass.everywhere (tagLine opening) []).run (rs.flatMap (·.write opening) ++ s) =
      (Pass.everywhere (tagLine opening) []).run s := by
  induction rs with
  | nil => rfl
  | cons r rs ih =>
    have hne : r.write opening ≠ [] := by simp [Remark.write]
    rw [List.flatMap_cons, List.append_assoc]
    exact (Text.replaceSpans_stretch (tagLine_write r) hne).trans ih

/-- Tags of one kind are none of another kind, which differs in the second character. -/
theorem silent_remarks {y : Char} {front : List Char} (hxy : x ≠ y) (hy : '<' ≠ y)
    (hfront : '<' ∉ front) (rs : List Remark) (s : List Char) :
    Silent (wordSpan ('<' :: x :: word)) (rs.flatMap (·.write ('<' :: y :: front))) s := by
  induction rs with
  | nil => exact Text.silent_nil
  | cons r rs ih =>
    have hrest : '<' ∉ y :: (front ++ r.text.toList ++ ['>', '\n']) := by simp [hy, hfront, r.plain.1]
    rw [List.flatMap_cons, Text.silent_append_iff]
    refine ⟨Text.silent_cons_iff.2 ⟨wordSpan_eq_none_iff.2 fun h => ?_,
      Text.silent_of_not_mem (fun _ => head?_of_wordSpan) hrest⟩, ih⟩
    exact hxy (List.cons_prefix_cons.1 (List.cons_prefix_cons.1 h).2).1

/-! ### Blocks -/

theorem lastEnd_of_silent (h : Silent (wordSpan word) s []) : lastEnd word s = none := by
  induction s with
  | nil => rfl
  | cons c s ih =>
    obtain ⟨hc, hs⟩ := Text.silent_cons_iff.1 h
    rw [List.append_nil, wordSpan_eq_none_iff] at hc
    unfold lastEnd
    rw [ih hs]
    dsimp only
    rw [if_neg (by rwa [List.isPrefixOf_iff_prefix])]

/-- Where the closing tag does not occur there is no block. -/
theorem withoutBlock_of_silent (ho : opening ≠ []) (hw : word ≠ [])
    (h : Silent (wordSpan word) s []) : withoutBlock opening word s = s := by
  rw [← replaceSpans_block ho hw]
  exact replaceSpans_block_of_none (lastEnd_drop_of_none (lastEnd_of_silent h) _)

/-! ### Attributes -/

/-- Between the beginning of the text and its first quote, if there is one, stands a space. -/
def Spaced (v : List Char) : Prop :=
  ∀ a t, v = a ++ '"' :: t → '"' ∉ a → ' ' ∈ a

theorem spaced_cons (v : List Char) : Spaced (' ' :: v) := by
  rintro (_ | ⟨y, a⟩) t h -
  · cases h
  · obtain ⟨rfl, -⟩ := List.cons.inj h
    exact List.mem_cons_self

theorem Spaced.append (hv : Spaced v) (hs : '"' ∉ s) : Spaced (s ++ v) := by
  induction s with
  | nil => exact hv
  | cons x s ih =>
    rw [List.mem_cons, not_or] at hs
    rintro (_ | ⟨y, a⟩) t h ha
    · obtain ⟨rfl, -⟩ := List.cons.inj h
      exact absurd rfl hs.1
    · rw [List.cons_append, List.cons_append, List.cons.injEq] at h
      rw [List.mem_cons, not_or] at ha
      exact List.mem_cons_of_mem y (ih hs.2 a t h.2 ha.2)

theorem Attribute.spaced_write (a : Attribute) (v : List Char) : Spaced (a.write gone ++ v) := by
  unfold Attribute.write
  split <;> exact spaced_cons _

theorem Tag.spaced_writeAttributes (t : Tag) (hv : Spaced v) :
    Spaced (t.writeAttributes gone ++ v) := by
  unfold Tag.writeAttributes
  cases t.attributes with
  | nil => exact hv
  | cons a as =>
    rw [List.flatMap_cons, List.append_assoc]
    exact a.spaced_write _

theorem Content.spaced_write (content : Content) (hv : Spaced v) :
    Spaced (content.write gone ++ v) := by
  have hname : ∀ n : Name, '"' ∉ n.text.toList := fun n => n.not_mem (by decide)
  induction content generalizing v with
  | nothing => exact hv
  | text t rest ih =>
    rw [Content.write_text]
    exact (ih hv).append (t.not_mem (by decide))
  | closed tag rest ih =>
    rw [Content.write_closed]
    have hrest := (ih hv).append (s := ['/', '>']) (by decide)
    exact (tag.spaced_writeAttributes hrest).append (by simpa using hname tag.name)
  | around tag inner rest ihInner ihRest =>
    rw [Content.write_around]
    have hrest := (ihRest hv).append (s := '<' :: '/' :: (tag.name.text.toList ++ ['>']))
      (by simpa using hname tag.name)
    have hinner := (ihInner hrest).append (s := ['>']) (by decide)
    exact (tag.spaced_writeAttributes hinner).append (by simpa using hname tag.name)

/-- In front of a text that is spaced, no attribute begins with a space. -/
theorem valueOf_eq_none_of_spaced (hname : ' ' ∉ name) (hquote : '"' ∉ name) (hv : Spaced v) :
    valueOf name (' ' :: v) = none := by
  unfold valueOf
  dsimp only
  rw [if_neg]
  rw [List.isPrefixOf_iff_prefix, List.cons_append, List.cons_prefix_cons]
  rintro ⟨-, t, h⟩
  rw [List.append_assoc, List.cons_append, List.singleton_append, List.append_cons] at h
  have hspace := hv _ t h.symm (by simpa using hquote)
  exact hname (by simpa using hspace)

/-- The text in front of the first quote is no beginning of an attribute of that name. -/
theorem valueOf_eq_none_of_front (hquote : '"' ∉ name) (ha : '"' ∉ a) (hne : a ≠ ' ' :: (name ++ ['=']))
    (s : List Char) : valueOf name (a ++ '"' :: s) = none := by
  unfold valueOf
  dsimp only
  rw [if_neg]
  rw [List.isPrefixOf_iff_prefix]
  rintro ⟨t, h⟩
  have hopening : ' ' :: name ++ ['=', '"'] ++ t = ' ' :: (name ++ ['=']) ++ '"' :: t := by simp
  rw [hopening] at h
  exact hne (eq_of_append_cons ha (by simpa using hquote) h.symm).1

/-- An attribute that is written is a stretch for its own name. -/
theorem valueOf_write (hquote : '"' ∉ a) (s : List Char) :
    valueOf name (' ' :: (name ++ '=' :: '"' :: (a ++ ['"'])) ++ s) =
      some (' ' :: (name ++ '=' :: '"' :: (a ++ ['"']))).length := by
  have hwritten : ' ' :: (name ++ '=' :: '"' :: (a ++ ['"'])) ++ s =
      ' ' :: name ++ ['=', '"'] ++ (a ++ '"' :: s) := by simp
  rw [hwritten]
  unfold valueOf
  dsimp only
  rw [if_pos (by simp), List.drop_left, lengthTo_append hquote]
  simp
  omega

theorem head?_of_valueOf (h : valueOf name s ≠ none) : s.head? = some ' ' := by
  unfold valueOf at h
  dsimp only at h
  split at h
  · rename_i hp
    obtain ⟨rest, rfl⟩ := List.isPrefixOf_iff_prefix.1 hp
    rfl
  · exact absurd rfl h

/-- No attribute of another name begins where an attribute is written. -/
theorem Attribute.silent_write (a : Attribute) (hquote : '"' ∉ name) (hgone : a.name.text ∉ gone)
    (hne : a.name.text.toList ≠ name) (s : List Char) :
    Silent (valueOf name) (a.write gone) s := by
  have hquiet : ∀ {u v}, ' ' ∉ u → Silent (valueOf name) u v := fun hu =>
    Text.silent_of_not_mem (fun _ => head?_of_valueOf) hu
  have hskip : ∀ {c v}, c ≠ ' ' → valueOf name (c :: v) = none := by
    intro c v hc
    have hsilent : Silent (valueOf name) [c] v := hquiet (by simpa using hc.symm)
    exact (Text.silent_cons_iff.1 hsilent).1
  have hlead : '"' ∉ ' ' :: (a.name.text.toList ++ ['=']) := by
    simpa using a.name.not_mem (c := '"') (by decide)
  have hfront : valueOf name (' ' :: (a.name.text.toList ++ ['=']) ++ '"' ::
      (a.value.toList ++ ['"'] ++ s)) = none :=
    valueOf_eq_none_of_front hquote hlead (by simpa using hne) _
  have hvalue : Silent (valueOf name) a.value.toList ('"' :: s) := by
    rintro t ht -
    refine valueOf_eq_none_of_front hquote (fun hm => a.not_mem (by decide) (ht.subset hm)) ?_ s
    -- a value that ended with the beginning of an attribute would end with an equals sign
    rintro rfl
    obtain ⟨front, hvalue⟩ := ht
    rw [← List.cons_append, ← List.append_assoc] at hvalue
    exact a.closed (by rw [← hvalue, List.getLast?_concat])
  unfold Attribute.write
  rw [if_neg hgone]
  simp only [Text.silent_cons_iff, Text.silent_append_iff]
  refine ⟨?_, hquiet (a.name.not_mem (by decide)), ?_⟩
  · simpa using hfront
  · exact ⟨hskip (by decide), hskip (by decide), hvalue, hskip (by decide), Text.silent_nil⟩

section

variable {name : String} (hspace : ' ' ∉ name.toList) (hquote : '"' ∉ name.toList)
include hspace hquote

/-- No attribute begins in front of a text that is spaced. -/
theorem replaceSpans_spaced (hs : '"' ∉ s) (hv : Spaced v) :
    Text.replaceSpans (valueOf name.toList) [' '] 0 (s ++ v) =
      s ++ Text.replaceSpans (valueOf name.toList) [' '] 0 v := by
  refine Text.replaceSpans_silent ?_
  rintro t ht hne
  obtain ⟨c, t, rfl⟩ := List.exists_cons_of_ne_nil hne
  have htail : '"' ∉ t := fun hm => hs (ht.subset (List.mem_cons_of_mem c hm))
  apply Classical.byContradiction
  intro hsome
  obtain rfl : c = ' ' := by simpa using head?_of_valueOf hsome
  exact hsome (valueOf_eq_none_of_spaced hspace hquote (hv.append htail))

/-- An attribute of the name becomes a space, any other stays. -/
theorem replaceSpans_attribute (a : Attribute) (hv : Spaced v) :
    Text.replaceSpans (valueOf name.toList) [' '] 0 (a.write gone ++ v) =
      a.write (gone ++ [name]) ++ Text.replaceSpans (valueOf name.toList) [' '] 0 v := by
  by_cases hgone : a.name.text ∈ gone
  · have hwritten : ∀ {more}, a.write (gone ++ more) = [' '] := fun {more} =>
      if_pos (List.mem_append_left more hgone)
    have hbefore : a.write gone = [' '] := if_pos hgone
    rw [hwritten, hbefore]
    exact replaceSpans_spaced hspace hquote (by decide) hv
  by_cases hname : a.name.text = name
  · have hwritten : a.write (gone ++ [name]) = [' '] := if_pos (by simp [hname])
    have hstretch : valueOf name.toList (a.write gone ++ v) = some (a.write gone).length := by
      unfold Attribute.write
      rw [if_neg hgone, hname]
      exact valueOf_write (a.not_mem (by decide)) v
    have hne : a.write gone ≠ [] := by
      unfold Attribute.write
      simp [hgone]
    rw [hwritten, Text.replaceSpans_stretch hstretch hne]
  · have hwritten : a.write (gone ++ [name]) = a.write gone := by
      unfold Attribute.write
      simp [hgone, hname]
    rw [hwritten]
    exact Text.replaceSpans_silent
      (a.silent_write hquote hgone (mt String.toList_inj.1 hname) v)

theorem replaceSpans_writeAttributes (t : Tag) (hv : Spaced v) :
    Text.replaceSpans (valueOf name.toList) [' '] 0 (t.writeAttributes gone ++ v) =
      t.writeAttributes (gone ++ [name]) ++ Text.replaceSpans (valueOf name.toList) [' '] 0 v := by
  have hall : ∀ as : List Attribute, Spaced (as.flatMap (·.write gone) ++ v) ∧
      Text.replaceSpans (valueOf name.toList) [' '] 0 (as.flatMap (·.write gone) ++ v) =
        as.flatMap (·.write (gone ++ [name])) ++
          Text.replaceSpans (valueOf name.toList) [' '] 0 v := by
    intro as
    induction as with
    | nil => exact ⟨hv, rfl⟩
    | cons a as ih =>
      simp only [List.flatMap_cons, List.append_assoc]
      refine ⟨a.spaced_write _, ?_⟩
      rw [replaceSpans_attribute hspace hquote a ih.1, ih.2]
  exact (hall t.attributes).2

/-- The pass for one attribute takes out the attributes of that name, and nothing else. -/
theorem replaceSpans_write (content : Content) (hv : Spaced v) :
    Text.replaceSpans (valueOf name.toList) [' '] 0 (content.write gone ++ v) =
      content.write (gone ++ [name]) ++ Text.replaceSpans (valueOf name.toList) [' '] 0 v := by
  have hname : ∀ n : Name, '"' ∉ n.text.toList := fun n => n.not_mem (by decide)
  induction content generalizing v with
  | nothing => rfl
  | text t rest ih =>
    rw [Content.write_text, Content.write_text,
      replaceSpans_spaced hspace hquote (t.not_mem (by decide)) (rest.spaced_write hv), ih hv]
  | closed tag rest ih =>
    have hrest : Spaced (rest.write gone ++ v) := rest.spaced_write hv
    have hend := hrest.append (s := ['/', '>']) (by decide)
    rw [Content.write_closed, Content.write_closed,
      replaceSpans_spaced hspace hquote (by simpa using hname tag.name)
        (tag.spaced_writeAttributes hend),
      replaceSpans_writeAttributes hspace hquote tag hend,
      replaceSpans_spaced hspace hquote (by decide) hrest, ih hv]
  | around tag inner rest ihInner ihRest =>
    have hrest : Spaced (rest.write gone ++ v) := rest.spaced_write hv
    have hclosing := hrest.append (s := '<' :: '/' :: (tag.name.text.toList ++ ['>']))
      (by simpa using hname tag.name)
    have hinner : Spaced (inner.write gone ++ _) := inner.spaced_write hclosing
    have hend := hinner.append (s := ['>']) (by decide)
    rw [Content.write_around, Content.write_around,
      replaceSpans_spaced hspace hquote (by simpa using hname tag.name)
        (tag.spaced_writeAttributes hend),
      replaceSpans_writeAttributes hspace hquote tag hend,
      replaceSpans_spaced hspace hquote (by decide) hinner, ihInner hclosing,
      replaceSpans_spaced hspace hquote (by simpa using hname tag.name) hrest, ihRest hv]

end

/-! ### All passes -/

theorem toList_declaration : "<?xml".toList = '<' :: '?' :: "xml".toList := by decide

theorem toList_comment : "<!--".toList = '<' :: '!' :: "--".toList := by decide

theorem run_declarationPass (content : Content) (declarations comments : List Remark) :
    declarationPass.run (declarations.flatMap (·.write "<?xml".toList) ++
      (comments.flatMap (·.write "<!--".toList) ++ content.write gone)) =
      comments.flatMap (·.write "<!--".toList) ++ content.write gone := by
  have hsilent : Silent (wordSpan "<?xml".toList)
      (comments.flatMap (·.write "<!--".toList) ++ content.write gone) [] := by
    rw [Text.silent_append_iff, toList_declaration, toList_comment]
    exact ⟨silent_remarks (by decide) (by decide) (by decide) _ _,
      silent_write_of_foreign (by decide) (by decide) content []⟩
  refine (run_tagLine _ _).trans ?_
  exact Text.replaceSpans_of_silent (hsilent.mono fun _ => tagLine_eq_none_of_wordSpan)

theorem run_commentPass (content : Content) (comments : List Remark) :
    commentPass.run (comments.flatMap (·.write "<!--".toList) ++ content.write gone) =
      content.write gone := by
  have hsilent : Silent (wordSpan "<!--".toList) (content.write gone) [] := by
    rw [toList_comment]
    exact silent_write_of_foreign (by decide) (by decide) content []
  refine (run_tagLine _ _).trans ?_
  exact Text.replaceSpans_of_silent (hsilent.mono fun _ => tagLine_eq_none_of_wordSpan)

/-- There is no block in a document. -/
theorem withoutBlock_write (name : String) (ho : opening ≠ []) (hname : '>' ∉ name.toList)
    (ht : ∀ t : Tag, t.name.text ≠ name) (content : Content) :
    withoutBlock opening ('<' :: '/' :: (name.toList ++ ['>'])) (content.write gone) =
      content.write gone :=
  withoutBlock_of_silent ho (List.cons_ne_nil _ _)
    (silent_write_closing hname (fun t => mt String.toList_inj.1 (ht t)) content [])

theorem run_definitionsPass (content : Content) :
    definitionsPass.run (content.write gone) = content.write gone :=
  withoutBlock_write "defs" (by decide) (by decide) (fun t => t.kept.1) content

theorem run_clippingPass (content : Content) :
    clippingPass.run (content.write gone) = content.write gone :=
  withoutBlock_write "clipPath" (by decide) (by decide) (fun t => t.kept.2) content

/-- A denylist that names attributes: no name in it has a space or a quote. -/
def Names (denylist : List String) : Prop :=
  ∀ name ∈ denylist, ' ' ∉ name.toList ∧ '"' ∉ name.toList

theorem run_attributePasses (h : Names denylist) (content : Content) :
    (denylist.map attributePass).foldl (fun s p => p.run s) (content.write gone) =
      content.write (gone ++ denylist) := by
  induction denylist generalizing gone with
  | nil => simp
  | cons name denylist ih =>
    obtain ⟨⟨hspace, hquote⟩, hrest⟩ := List.forall_mem_cons.1 h
    have hrun : (attributePass name).run (content.write gone) = content.write (gone ++ [name]) := by
      have hend : Spaced [] := fun a t h => by simp at h
      have hpass : Text.replaceSpans (valueOf name.toList) [' '] 0 (content.write gone ++ []) = _ :=
        replaceSpans_write hspace hquote content hend
      rw [List.append_nil, Text.replaceSpans_nil, List.append_nil] at hpass
      exact hpass
    rw [List.map_cons, List.foldl_cons, hrun, ih hrest, List.append_assoc, List.singleton_append]

/-- Behind the declaration and the comments, stripping takes out the attributes of the denylist. -/
theorem foldl_passes (gone : List String) (h : Names denylist) (content : Content)
    (declarations comments : List Remark) :
    (passes denylist).foldl (fun s p => p.run s)
      (declarations.flatMap (·.write "<?xml".toList) ++
        (comments.flatMap (·.write "<!--".toList) ++ content.write gone)) =
      content.write (gone ++ denylist) := by
  unfold passes
  rw [List.foldl_append]
  simp only [List.foldl_cons, List.foldl_nil]
  rw [run_declarationPass, run_commentPass, run_definitionsPass, run_clippingPass,
    run_attributePasses h]

/-- An attribute is gone once only. -/
theorem Attribute.write_append_self (a : Attribute) : a.write (gone ++ gone) = a.write gone := by
  unfold Attribute.write
  simp

theorem Content.write_append_self (content : Content) :
    content.write (gone ++ gone) = content.write gone := by
  have htag : ∀ t : Tag, t.writeAttributes (gone ++ gone) = t.writeAttributes gone := fun t => by
    simp only [Tag.writeAttributes, Attribute.write_append_self]
  induction content with
  | nothing => rfl
  | text t rest ih => rw [Content.write, Content.write, ih]
  | closed tag rest ih => rw [Content.write, Content.write, htag, ih]
  | around tag inner rest ihInner ihRest =>
    rw [Content.write, Content.write, htag, ihInner, ihRest]

theorem Element.text_beginning (e : Element) (gone : List String) :
    ∃ rest, (e.text gone).toList = '<' :: (e.tag.name.text.toList ++ rest) := by
  unfold Element.text Element.content
  rw [String.toList_ofList]
  cases e.inner <;> exact ⟨_, rfl⟩

/-- Stripping a document leaves its root element with a space in the place of every attribute of the denylist,
and nothing else changed. The declaration and the comments are gone, stripping once more changes nothing,
and if the root element is a drawing, so is the result. -/
theorem strip_document (d : Document) (h : Names denylist) :
    strip denylist d.text = d.root.text denylist ∧
      ¬ "<?xml".toList <:+: (d.root.text denylist).toList ∧
      ¬ "<!--".toList <:+: (d.root.text denylist).toList ∧
      strip denylist (d.root.text denylist) = d.root.text denylist ∧
      (d.root.tag.name.text = "svg" → isDrawing (d.root.text denylist) = true) := by
  have hforeign : ∀ {x : Char} {word : List Char}, isNameChar x = false → x ≠ '/' →
      ¬ '<' :: x :: word <:+: (d.root.text denylist).toList := by
    intro x word hx hslash
    unfold Element.text
    rw [String.toList_ofList]
    exact Text.not_infix_of_silent (List.cons_ne_nil _ _)
      (silent_write_of_foreign hx hslash d.root.content [])
  refine ⟨?_, hforeign (by decide) (by decide), hforeign (by decide) (by decide), ?_, fun hsvg => ?_⟩
  · unfold strip Document.text
    rw [String.toList_ofList]
    exact congrArg String.ofList (foldl_passes [] h d.root.content d.declaration.toList d.comments)
  · have hagain := foldl_passes denylist h d.root.content [] []
    rw [Content.write_append_self] at hagain
    unfold strip Element.text
    rw [String.toList_ofList]
    exact congrArg String.ofList hagain
  · obtain ⟨rest, hrest⟩ := d.root.text_beginning denylist
    unfold isDrawing
    rw [hrest, hsvg, Bool.or_eq_true, List.isPrefixOf_iff_prefix]
    exact .inl ⟨rest, rfl⟩

/-- A drawing in which names end alike and a value looks like attributes. -/
def nestedDrawing : Document where
  declaration := some { text := " version=\"1.0\" encoding=\"UTF-8\"?" }
  comments := [{ text := " made by hand --" }]
  root :=
    { tag :=
        { name := { text := "svg" }
          attributes :=
            [{ name := { text := "xmlns" }, value := "http://www.w3.org/2000/svg" },
             { name := { text := "xmlns:x" }, value := " width=24 x= " },
             { name := { text := "viewBox" }, value := "0 0 24 24" }] }
      inner := some <|
        .around
          { name := { text := "g" }
            attributes := [{ name := { text := "x" }, value := "1" },
              { name := { text := "rx" }, value := "2" }, { name := { text := "y" }, value := "" }] }
          (.text { text := "a y=" } (.closed { name := { text := "defs.x" }, attributes := [] }
            .nothing))
          .nothing }

theorem strip_nestedDrawing :
    nestedDrawing.text = "<?xml version=\"1.0\" encoding=\"UTF-8\"?>\n<!-- made by hand -->\n" ++
        "<svg xmlns=\"http://www.w3.org/2000/svg\" xmlns:x=\" width=24 x= \" " ++
        "viewBox=\"0 0 24 24\"><g x=\"1\" rx=\"2\" y=\"\">a y=<defs.x/></g></svg>" ∧
      strip Edition.legacy.denylist nestedDrawing.text =
        "<svg  xmlns:x=\" width=24 x= \" viewBox=\"0 0 24 24\">" ++
          "<g  rx=\"2\" >a y=<defs.x/></g></svg>" ∧
      isDrawing (strip Edition.legacy.denylist nestedDrawing.text) = true := by
  have hnames : Names Edition.legacy.denylist := by
    unfold Names
    decide
  have h := strip_document nestedDrawing hnames
  have hroot : nestedDrawing.root.text Edition.legacy.denylist =
      "<svg  xmlns:x=\" width=24 x= \" viewBox=\"0 0 24 24\">" ++
        "<g  rx=\"2\" >a y=<defs.x/></g></svg>" := by
    decide
  refine ⟨by decide +kernel, h.1.trans hroot, ?_⟩
  rw [h.1]
  exact h.2.2.2.2 rfl

end Markup
end IconModules
