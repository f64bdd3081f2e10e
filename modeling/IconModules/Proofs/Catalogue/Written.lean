import IconModules.Proofs.Json.Skipping

/-! # Catalogues as they may be written

A stored catalogue is read as the catalogue that it was written for (`read_written`), however it was written: with
the members of each object in any order, with unknown members between them, without lists that are empty, and with
or without the guard.

* An `Icon.Entry` and a `Catalogue.Listing` are what may be written down; there a version is any whole number.
* `Icon.Part` and `Catalogue.Part` are the members, each known by its key.
* `Makes s ms e` says that fields already read and members still to come make up an entry. Reading a member keeps
  it (`Makes.next`), so at the end the fields alone make up the entry (`Makes.ofFields_eq`). -/

namespace IconModules

open Json

/-- At most one list was found, and none stands for the empty list. -/
def MayOmit {α : Type} (found : List (List α)) (l : List α) : Prop :=
  found = [l] ∨ found = [] ∧ l = []

section

variable {α : Type} {o : Option α} {x y : α} {xs : List α}

theorem eq_of_toList_append (h : o.toList ++ x :: xs = [y]) :
    o = none ∧ x = y ∧ (some x).toList ++ xs = [y] := by
  cases o with
  | none => exact ⟨rfl, (List.cons.inj h).1, h⟩
  | some z => simp at h

theorem MayOmit.next {o : Option (List α)} {l k : List α} {ls : List (List α)}
    (h : MayOmit (o.toList ++ l :: ls) k) : o = none ∧ l = k ∧ MayOmit ((some l).toList ++ ls) k := by
  rcases h with h | ⟨h, -⟩
  · obtain ⟨ho, hl, h⟩ := eq_of_toList_append h
    exact ⟨ho, hl, .inl h⟩
  · simp at h

theorem MayOmit.getD {o : Option (List α)} {l : List α} (h : MayOmit (o.toList ++ []) l) : o.getD [] = l := by
  rcases h with h | ⟨h, rfl⟩
  · cases o <;> simp_all
  · cases o <;> simp_all

end

/-! ### Icons -/

namespace Icon

/-- An icon as it is listed. -/
structure Entry where
  name : String
  version : Nat
  categories : List String
  unsupported : List String

/-- The icon of an entry, if thirty-two bits can hold its version. -/
def Entry.icon? (e : Entry) : Option Icon :=
  (word? e.version).map fun v => ⟨e.name, v, e.categories, e.unsupported⟩

/-- How an icon is listed. -/
def entry (i : Icon) : Entry :=
  ⟨i.name, i.version.toNat, i.categories, i.unsupported⟩

/-- A member of what is written for an icon. -/
inductive Part where
  | name (s : String)
  | version (n : Nat)
  | categories (l : List String)
  | unsupported (l : List String)
  | other

namespace Part

def name? : Part → Option String
  | name s => some s
  | _ => none

def version? : Part → Option Nat
  | version n => some n
  | _ => none

def categories? : Part → Option (List String)
  | categories l => some l
  | _ => none

def unsupported? : Part → Option (List String)
  | unsupported l => some l
  | _ => none

/-- What may stand behind which key. -/
def Written (key : String) (v : Octets) : Part → Prop
  | name s => key = "name" ∧ Valued Quoted v s
  | version n => key = "version" ∧ Valued (fun w n => w = decimal n) v n
  | categories l => key = "categories" ∧ Valued (Listed Quoted) v l
  | unsupported l => key = "unsupported_families" ∧ Valued (Listed Quoted) v l
  | other => key ∉ ["name", "version", "categories", "unsupported_families"] ∧ Valued AnyValue v ()

end Part

/-- Fields that have been read and members to come make up an entry. -/
structure Makes (s : Fields) (ms : List Part) (e : Entry) : Prop where
  name : s.name.toList ++ ms.filterMap Part.name? = [e.name]
  version : (s.version.map UInt32.toNat).toList ++ ms.filterMap Part.version? = [e.version]
  categories : MayOmit (s.categories.toList ++ ms.filterMap Part.categories?) e.categories
  unsupported : MayOmit (s.unsupported.toList ++ ms.filterMap Part.unsupported?) e.unsupported

/-- What may be written for an icon. -/
def Written (w : Octets) (e : Entry) : Prop :=
  ∃ ms, Braced (Member Part.Written) w ms ∧ Makes {} ms e

variable {r : Reader} {t v w : Octets} {s s' : Fields} {m : Part} {ms : List Part} {e : Entry} {key : String}

/-- Whether a member may be read: its field has not come yet. -/
def Free (s : Fields) : Part → Prop
  | .name _ => s.name = none
  | .version _ => s.version = none
  | .categories _ => s.categories = none
  | .unsupported _ => s.unsupported = none
  | .other => True

/-- The fields with one more member, unless it is a version that is too large. -/
def put (s : Fields) : Part → Option Fields
  | .name x => some { s with name := some x }
  | .version n => (word? n).map fun v => { s with version := some v }
  | .categories l => some { s with categories := some l }
  | .unsupported l => some { s with unsupported := some l }
  | .other => some s

theorem reads_texts {l : List String} (h : Listed Quoted w l) : Reads (list Json.text) w (some l) := by
  have hread := reads_list (g := some) (fun v x (hx : Quoted v x) => reads_text hx) h
  rwa [show l.mapM some = some l by simpa using List.mapM_pure (m := Option) (l := l) (f := id)] at hread

/-- A member is read into its field. -/
theorem gives_member (h : Part.Written key v m) (hfree : Free s m) (ht : Delimited t) (hr : r.rest = v ++ t) :
    Gives (member s key r) ((put s m).map .ok) (r.skip v.length) := by
  cases m with
  | name x =>
    obtain ⟨rfl, h⟩ := h
    have hmember : member s "name" r =
      field "name" s.name Json.text (fun x => { s with name := some x }) r := rfl
    rw [hmember]
    exact gives_field (fun u hu => reads_text hu) hfree h ht hr
  | version n =>
    obtain ⟨rfl, h⟩ := h
    have hmember : member s "version" r =
      field "version" s.version number32 (fun x => { s with version := some x }) r := rfl
    rw [hmember]
    refine gives_field (fun u hu => ?_) hfree h ht hr
    obtain rfl : u = decimal n := hu
    exact reads_number32 n
  | categories l =>
    obtain ⟨rfl, h⟩ := h
    have hmember : member s "categories" r =
      field "categories" s.categories (list Json.text) (fun x => { s with categories := some x }) r := rfl
    rw [hmember]
    exact gives_field (fun u hu => reads_texts hu) hfree h ht hr
  | unsupported l =>
    obtain ⟨rfl, h⟩ := h
    have hmember : member s "unsupported_families" r =
      field "unsupported_families" s.unsupported (list Json.text)
        (fun x => { s with unsupported := some x }) r := rfl
    rw [hmember]
    exact gives_field (fun u hu => reads_texts hu) hfree h ht hr
  | other =>
    obtain ⟨hkey, h⟩ := h
    have hmember : member s key r = (do
        let r ← skipValue (← readColon r)
        return (.ok s, r)) := by
      unfold member
      split <;> simp_all
    rw [hmember]
    exact gives_other h ht hr

theorem word?_eq_some {n : Nat} {v : UInt32} (h : word? n = some v) : v.toNat = n := by
  unfold word? at h
  split at h
  · obtain rfl := Option.some.inj h
    simpa using ‹n < UInt32.size›
  · cases h

theorem word?_toNat (v : UInt32) : word? v.toNat = some v := by
  have hsize : v.toNat < UInt32.size := v.toNat_lt
  simp [word?, hsize]

/-- A member that comes next is free, and reading it keeps what is made up. -/
theorem Makes.next (h : Makes s (m :: ms) e) :
    Free s m ∧ (∀ s', put s m = some s' → Makes s' ms e) ∧
      (put s m = none → e.icon?.map (.ok : Icon → Except Complaint Icon) = none) := by
  obtain ⟨hname, hversion, hcategories, hunsupported⟩ := h
  cases m with
  | name x =>
    obtain ⟨hfree, -, hname⟩ := eq_of_toList_append hname
    refine ⟨hfree, fun s' hs' => ?_, fun h => by cases h⟩
    obtain rfl := Option.some.inj hs'
    exact ⟨hname, hversion, hcategories, hunsupported⟩
  | version n =>
    obtain ⟨hfree, rfl, hversion⟩ := eq_of_toList_append hversion
    refine ⟨Option.map_eq_none_iff.1 hfree, fun s' hs' => ?_, fun hnone => ?_⟩
    · obtain ⟨v, hv, rfl⟩ := Option.map_eq_some_iff.1 hs'
      refine ⟨hname, ?_, hcategories, hunsupported⟩
      rw [Option.map_some, word?_eq_some hv]
      exact hversion
    · rw [Entry.icon?, Option.map_eq_none_iff.1 hnone]
      rfl
  | categories l =>
    obtain ⟨hfree, -, hcategories⟩ := hcategories.next
    refine ⟨hfree, fun s' hs' => ?_, fun h => by cases h⟩
    obtain rfl := Option.some.inj hs'
    exact ⟨hname, hversion, hcategories, hunsupported⟩
  | unsupported l =>
    obtain ⟨hfree, -, hunsupported⟩ := hunsupported.next
    refine ⟨hfree, fun s' hs' => ?_, fun h => by cases h⟩
    obtain rfl := Option.some.inj hs'
    exact ⟨hname, hversion, hcategories, hunsupported⟩
  | other =>
    refine ⟨trivial, fun s' hs' => ?_, fun h => by cases h⟩
    obtain rfl := Option.some.inj hs'
    exact ⟨hname, hversion, hcategories, hunsupported⟩

/-- Fields that make up an entry are those of its icon. -/
theorem Makes.ofFields_eq (h : Makes s [] e) : some (ofFields s) = e.icon?.map .ok := by
  obtain ⟨hname, hversion, hcategories, hunsupported⟩ := h
  rw [List.filterMap_nil, List.append_nil] at hname hversion
  have hname := Option.toList_eq_singleton_iff.1 hname
  obtain ⟨v, hv, hversion⟩ := Option.map_eq_some_iff.1 (Option.toList_eq_singleton_iff.1 hversion)
  have hfields : ofFields s = .ok ⟨e.name, v, e.categories, e.unsupported⟩ := by
    unfold ofFields
    simp only [hname, hv, hcategories.getD, hunsupported.getD]
  rw [hfields, Entry.icon?, ← hversion, word?_toNat]
  rfl

/-- Members that make up an entry may be read one after the other, and leave the fields of its icon. -/
theorem Makes.gather (h : Makes s ms e) :
    AllFree put Free s ms ∧ (ms.foldlM put s).map ofFields = e.icon?.map .ok :=
  allFree_foldlM (I := fun s ms => Makes s ms e) (fun _ _ _ h => h.next) (fun _ h => h.ofFields_eq) h

/-- An icon is read, unless its version is too large. -/
theorem reads_icon (h : Written w e) : Reads read w e.icon? := by
  obtain ⟨ms, hbraced, hmakes⟩ := h
  obtain ⟨hfree, hfields⟩ := hmakes.gather
  have hobject : ∀ r, asObject r =
    members member (r.left + 1) true {} r >>= fun p => .ok (p.1.bind ofFields, p.2) := fun r => rfl
  refine reads_record (k := fun s => s.bind ofFields) hobject ?_ hbraced hfree ?_
  · exact fun _ _ _ _ _ _ => gives_member
  · rw [Option.map_map]
    exact hfields

theorem entry_of_icon? {i : Icon} (h : e.icon? = some i) : i.entry = e := by
  obtain ⟨v, hv, rfl⟩ := Option.map_eq_some_iff.1 h
  rw [entry, word?_eq_some hv]

theorem icon?_entry (i : Icon) : i.entry.icon? = some i := by
  rw [Entry.icon?, entry, word?_toNat]
  rfl

end Icon

/-! ### Catalogues -/

namespace Catalogue

/-- A catalogue as it is written down. -/
structure Listing where
  icons : List Icon.Entry
  families : List String

/-- The catalogue of a listing, if thirty-two bits can hold all versions. -/
def Listing.catalogue? (x : Listing) : Option Catalogue :=
  (x.icons.mapM Icon.Entry.icon?).map fun icons => ⟨icons, x.families⟩

/-- How a catalogue is written down. -/
def listing (c : Catalogue) : Listing :=
  ⟨c.icons.map Icon.entry, c.families⟩

/-- A member of what is written for a catalogue. -/
inductive Part where
  | icons (l : List Icon.Entry)
  | families (l : List String)
  | other

namespace Part

def icons? : Part → Option (List Icon.Entry)
  | icons l => some l
  | _ => none

def families? : Part → Option (List String)
  | families l => some l
  | _ => none

/-- What may stand behind which key. -/
def Written (key : String) (v : Octets) : Part → Prop
  | icons l => key = "icons" ∧ Valued (Listed Icon.Written) v l
  | families l => key = "families" ∧ Valued (Listed Quoted) v l
  | other => key ∉ ["icons", "families"] ∧ Valued AnyValue v ()

end Part

/-- Fields that have been read and members to come make up a listing. -/
structure Makes (s : Fields) (ms : List Part) (x : Listing) : Prop where
  icons : MayOmit ((s.icons.map (·.map Icon.entry)).toList ++ ms.filterMap Part.icons?) x.icons
  families : MayOmit (s.families.toList ++ ms.filterMap Part.families?) x.families

/-- What may be written for a catalogue: an object with blanks around it, and the guard or nothing in front. -/
def Written (raw : Octets) (x : Listing) : Prop :=
  ∃ guard a w b ms, (guard = [] ∨ guard = Text.encode guardText) ∧ Blank a ∧ Blank b ∧
    Braced (Member Part.Written) w ms ∧ Makes {} ms x ∧ raw = guard ++ (a ++ (w ++ b))

variable {r : Reader} {t v w raw : Octets} {s s' : Fields} {m : Part} {ms : List Part} {x : Listing} {key : String}

/-- Whether a member may be read: its field has not come yet. -/
def Free (s : Fields) : Part → Prop
  | .icons _ => s.icons = none
  | .families _ => s.families = none
  | .other => True

/-- The fields with one more member, unless it is a list in which a version is too large. -/
def put (s : Fields) : Part → Option Fields
  | .icons l => (l.mapM Icon.Entry.icon?).map fun icons => { s with icons := some icons }
  | .families l => some { s with families := some l }
  | .other => some s

/-- A member is read into its field. -/
theorem gives_member (h : Part.Written key v m) (hfree : Free s m) (ht : Delimited t) (hr : r.rest = v ++ t) :
    Gives (member s key r) ((put s m).map .ok) (r.skip v.length) := by
  cases m with
  | icons l =>
    obtain ⟨rfl, h⟩ := h
    have hmember : member s "icons" r =
      field "icons" s.icons (list Icon.read) (fun x => { s with icons := some x }) r := rfl
    rw [hmember]
    exact gives_field (fun u hu => reads_list (fun v x hx => Icon.reads_icon hx) hu) hfree h ht hr
  | families l =>
    obtain ⟨rfl, h⟩ := h
    have hmember : member s "families" r =
      field "families" s.families (list Json.text) (fun x => { s with families := some x }) r := rfl
    rw [hmember]
    exact gives_field (fun u hu => Icon.reads_texts hu) hfree h ht hr
  | other =>
    obtain ⟨hkey, h⟩ := h
    have hmember : member s key r = (do
        let r ← skipValue (← readColon r)
        return (.ok s, r)) := by
      unfold member
      split <;> simp_all
    rw [hmember]
    exact gives_other h ht hr

theorem mapM_icon?_entry (icons : List Icon) : (icons.map Icon.entry).mapM Icon.Entry.icon? = some icons := by
  induction icons with
  | nil => rfl
  | cons i icons ih =>
    rw [List.map_cons, mapM_cons, Icon.icon?_entry, ih]
    rfl

/-- Entries that stand for icons are how these icons are listed. -/
theorem map_entry_of_mapM {l : List Icon.Entry} {icons : List Icon} (h : l.mapM Icon.Entry.icon? = some icons) :
    icons.map Icon.entry = l := by
  induction l generalizing icons with
  | nil =>
    obtain rfl := Option.some.inj h
    rfl
  | cons e l ih =>
    rw [mapM_cons] at h
    obtain ⟨i, hi, h⟩ := Option.bind_eq_some_iff.1 h
    obtain ⟨rest, hrest, rfl⟩ := Option.map_eq_some_iff.1 h
    rw [List.map_cons, ih hrest, Icon.entry_of_icon? hi]

/-- Of entries with a version that is too large, nothing is made. -/
theorem mapM_icon?_eq_none {l : List Icon.Entry} (h : ∃ e ∈ l, UInt32.size ≤ e.version) :
    l.mapM Icon.Entry.icon? = none := by
  cases hl : l.mapM Icon.Entry.icon? with
  | none => rfl
  | some icons =>
    obtain ⟨e, he, hsize⟩ := h
    rw [← map_entry_of_mapM hl] at he
    obtain ⟨i, -, rfl⟩ := List.mem_map.1 he
    exact absurd i.version.toNat_lt (Nat.not_lt.2 hsize)

/-- A member that comes next is free, and reading it keeps what is made up. -/
theorem Makes.next (h : Makes s (m :: ms) x) :
    Free s m ∧ (∀ s', put s m = some s' → Makes s' ms x) ∧ (put s m = none → x.catalogue? = none) := by
  obtain ⟨hicons, hfamilies⟩ := h
  cases m with
  | icons l =>
    obtain ⟨hfree, rfl, hicons⟩ := hicons.next
    refine ⟨Option.map_eq_none_iff.1 hfree, fun s' hs' => ?_, fun hnone => ?_⟩
    · obtain ⟨icons, hicons', rfl⟩ := Option.map_eq_some_iff.1 hs'
      refine ⟨?_, hfamilies⟩
      rw [Option.map_some, map_entry_of_mapM hicons']
      exact hicons
    · rw [Listing.catalogue?, Option.map_eq_none_iff.1 hnone]
      rfl
  | families l =>
    obtain ⟨hfree, -, hfamilies⟩ := hfamilies.next
    refine ⟨hfree, fun s' hs' => ?_, fun h => by cases h⟩
    obtain rfl := Option.some.inj hs'
    exact ⟨hicons, hfamilies⟩
  | other =>
    refine ⟨trivial, fun s' hs' => ?_, fun h => by cases h⟩
    obtain rfl := Option.some.inj hs'
    exact ⟨hicons, hfamilies⟩

/-- Fields that make up a listing are those of its catalogue. -/
theorem Makes.catalogue_eq (h : Makes s [] x) :
    some (⟨s.icons.getD [], s.families.getD []⟩ : Catalogue) = x.catalogue? := by
  have hicons : (s.icons.getD []).map Icon.entry = x.icons := by
    rw [← h.icons.getD]
    cases s.icons <;> rfl
  rw [Listing.catalogue?, ← hicons, mapM_icon?_entry, ← h.families.getD]
  rfl

/-- Members that make up a listing may be read one after the other, and leave the fields of its catalogue. -/
theorem Makes.gather (h : Makes s ms x) : AllFree put Free s ms ∧
    (ms.foldlM put s).map (fun s => (⟨s.icons.getD [], s.families.getD []⟩ : Catalogue)) = x.catalogue? :=
  allFree_foldlM (I := fun s ms => Makes s ms x) (fun _ _ _ h => h.next) (fun _ h => h.catalogue_eq) h

/-- A catalogue is read, unless a version is too large. -/
theorem reads_catalogue {w : Octets} (h : Braced (Member Part.Written) w ms) (hmakes : Makes {} ms x) :
    Reads (readRecord "struct Index" asList asObject) w x.catalogue? := by
  obtain ⟨hfree, hfields⟩ := hmakes.gather
  have hobject : ∀ r, asObject r = members member (r.left + 1) true {} r >>= fun p =>
    .ok (p.1.map fun s => ⟨s.icons.getD [], s.families.getD []⟩, p.2) := fun r => rfl
  refine reads_record hobject ?_ h hfree ?_
  · exact fun _ _ _ _ _ _ => gives_member
  · rw [← hfields, Option.map_map, Option.map_map]
    rfl

/-- The guard is taken off, and what does not begin like the guard is left as it is. -/
theorem unguarded_append {guard t : Octets} (hguard : guard = [] ∨ guard = Text.encode guardText)
    (ht : t.head? ≠ some (octet ')')) : unguarded (guard ++ t) = t := by
  unfold unguarded
  rcases hguard with rfl | rfl
  · have hnot : ¬ Text.encode guardText <+: t := by
      rintro ⟨u, rfl⟩
      exact ht rfl
    rw [← List.isPrefixOf_iff_prefix] at hnot
    simp [hnot]
  · simp

/-- What stands behind blanks and a record, and is blank itself, is read up to the end of the input. -/
theorem readBody_record {a b w : Octets} {o : Option Catalogue} (ha : Blank a) (hb : Blank b)
    (h : Reads (readRecord "struct Index" asList asObject) w o) :
    (∀ c, o = some c → readBody (a ++ (w ++ b)) = .ok c) ∧
      (o = none → ∃ f, readBody (a ++ (w ++ b)) = .error f) := by
  have hdelimited : Delimited b := fun x hx => .inl (hb x (List.mem_of_mem_head? hx))
  have hgives := h.gives (.ofOctets (a ++ (w ++ b))) a b ha hdelimited rfl
  refine ⟨fun c hc => ?_, fun hnone => ?_⟩
  · subst hc
    have hrest : ((Reader.ofOctets (a ++ (w ++ b))).skip (a.length + w.length)).rest = b ++ [] := by
      rw [List.append_nil, ← Reader.skip_skip]
      exact Reader.rest_skip (Reader.rest_skip rfl)
    have hend : ((Reader.ofOctets (a ++ (w ++ b))).skip (a.length + w.length)).trim.rest = [] := by
      rw [Reader.trim_eq hrest hb fun x hx => by cases hx]
      exact Reader.rest_skip hrest
    unfold readBody
    rw [show readRecord "struct Index" asList asObject (.ofOctets (a ++ (w ++ b))) = .ok (c, _) from hgives]
    simp only [bind, Except.bind, hend]
    rfl
  · subst hnone
    obtain ⟨f, hf⟩ := hgives
    exact ⟨f, by unfold readBody; rw [hf]; rfl⟩

/-- A catalogue is read back from whatever may be written for it, and a version that thirty-two bits cannot hold
is refused. -/
theorem read_written (h : Written raw x) : (∀ c : Catalogue, x = c.listing → read raw = .ok c) ∧
    ((∃ e ∈ x.icons, UInt32.size ≤ e.version) → ∃ e, read raw = .error e) := by
  obtain ⟨guard, a, w, b, ms, hguard, ha, hb, hbraced, hmakes, rfl⟩ := h
  have hbegins : (a ++ (w ++ b)).head? ≠ some (octet ')') := by
    obtain ⟨v, -, rfl⟩ := hbraced
    cases a with
    | nil => exact fun hx => absurd (Option.some.inj hx) (by decide)
    | cons x a =>
      intro hx
      exact absurd (Option.some.inj hx ▸ ha x List.mem_cons_self) (by decide)
  obtain ⟨hread, hrefused⟩ := readBody_record ha hb (reads_catalogue hbraced hmakes)
  unfold read
  rw [unguarded_append hguard hbegins]
  refine ⟨fun c hc => ?_, fun hlarge => ?_⟩
  · have hcatalogue : x.catalogue? = some c := by
      rw [hc, Listing.catalogue?, listing, mapM_icon?_entry]
      rfl
    rw [hread c hcatalogue]
    rfl
  · obtain ⟨f, hf⟩ := hrefused (by rw [Listing.catalogue?, mapM_icon?_eq_none hlarge]; rfl)
    exact ⟨_, by rw [hf]; rfl⟩

/-- A guarded catalogue of one icon that has the version `n`, with a name in two halves, members that nobody asks
for and lists left out. -/
def nested (n : Nat) : Octets :=
  Text.encode ")]\x7d'\n\x7b \"more\":[\x7b\"x\":null\x7d],\"icons\":[\x7b\"version\":" ++ (decimal n ++
    Text.encode ",\"name\":\"\\ud83D\\ude00\"\x7d]\x7d\n")

theorem written_nested (n : Nat) : Written (nested n) ⟨[⟨"😀", n, [], []⟩], []⟩ := by
  have hdigit : ∀ b d, (d < 16 ∧ (b = octet (Nat.digitChar d) ∨ b = octet (Nat.digitChar d).toUpper)) →
    HexDigit b d := fun _ _ h => h
  have hhigh : Numbered (Text.encode "\\ud83D") 0xD83D :=
    .digits (hdigit _ 13 (by decide)) (hdigit _ 8 (by decide)) (hdigit _ 3 (by decide)) (hdigit _ 13 (by decide))
  have hlow : Numbered (Text.encode "\\ude00") 0xDE00 :=
    .digits (hdigit _ 13 (by decide)) (hdigit _ 14 (by decide)) (hdigit _ 0 (by decide)) (hdigit _ 0 (by decide))
  have hname : Quoted (Text.encode "\"\\ud83D\\ude00\"") "😀" :=
    ⟨_, .cons (.halves (by decide) (by decide) (by decide) hhigh hlow) .nil, by decide⟩
  have hx : LooseMember (Value 0) (Text.encode "\"x\":null") () :=
    ⟨Text.encode "x", _, .plain (by decide) (by decide) (by decide) .nil, valued_tight Scalar.null, by decide⟩
  have hobject : Value 1 (Text.encode "\x7b\"x\":null\x7d") () :=
    .inr (.inr ⟨_, _, .first blank_nil hx (.done blank_nil), by decide⟩)
  have hlist : Value 2 (Text.encode "[\x7b\"x\":null\x7d]") () :=
    .inr (.inl ⟨_, _, .first blank_nil hobject (.done blank_nil), by decide⟩)
  have hmore : Member Part.Written (Text.encode "\"more\":[\x7b\"x\":null\x7d]") .other :=
    ⟨"more", _, _, quoted_itself (by decide), ⟨by decide, valued_tight ⟨2, hlist⟩⟩, by decide⟩
  have hicon : Icon.Written (Text.encode "\x7b\"version\":" ++ (decimal n ++
      Text.encode ",\"name\":\"\\ud83D\\ude00\"\x7d")) ⟨"😀", n, [], []⟩ := by
    refine ⟨[.version n, .name "😀"], ⟨_, .first blank_nil ⟨"version", _, _, quoted_itself (by decide),
      ⟨rfl, valued_tight rfl⟩, rfl⟩ (.next blank_nil blank_nil ⟨"name", _, _, quoted_itself (by decide),
      ⟨rfl, valued_tight hname⟩, rfl⟩ (.done blank_nil)), ?_⟩, ⟨rfl, rfl, .inr ⟨rfl, rfl⟩, .inr ⟨rfl, rfl⟩⟩⟩
    simp only [List.append_assoc, List.cons_append, List.nil_append]
    rfl
  refine ⟨_, [], _, [octet '\n'], [.other, .icons [⟨"😀", n, [], []⟩]], .inr rfl, blank_nil, ?_,
    ⟨_, .first (a := [octet ' ']) ?_ hmore (.next blank_nil blank_nil ⟨"icons", _, _, quoted_itself (by decide),
      ⟨rfl, valued_tight ⟨_, .first blank_nil hicon (.done blank_nil), rfl⟩⟩, rfl⟩ (.done blank_nil)), rfl⟩,
    ⟨.inl rfl, .inr ⟨rfl, rfl⟩⟩, ?_⟩
  · exact fun b hb => List.mem_singleton.1 hb ▸ by decide
  · exact fun b hb => List.mem_singleton.1 hb ▸ by decide
  · unfold nested
    simp only [List.append_assoc, List.cons_append, List.nil_append]
    rfl

/-- The version of a nested catalogue is read if thirty-two bits can hold it. -/
theorem read_nested : Written (nested 7) ⟨[⟨"😀", 7, [], []⟩], []⟩ ∧
    read (nested 7) = .ok ⟨[⟨"😀", 7, [], []⟩], []⟩ ∧
    Written (nested 4294967296) ⟨[⟨"😀", 4294967296, [], []⟩], []⟩ ∧ ∃ e, read (nested 4294967296) = .error e :=
  ⟨written_nested 7, (read_written (written_nested 7)).1 ⟨[⟨"😀", 7, [], []⟩], []⟩ rfl,
    written_nested 4294967296,
    (read_written (written_nested 4294967296)).2 ⟨_, List.mem_singleton_self _, Nat.le_refl _⟩⟩

end Catalogue
end IconModules
