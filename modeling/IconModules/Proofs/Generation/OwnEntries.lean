import IconModules.Proofs.Files.AgreeOff
import IconModules.Proofs.Generation.Fetching
import IconModules.Proofs.Generation.Mirrored
import IconModules.Proofs.Markup.Stretches

/-! # Every drawing has an entry of its own

* Family, name and version of a drawing can be read off the path of its entry (`cachePath_inj`).
* **`Tends p a`** says what the cache does with the entry of `p`, whether it sees to it or looks for its
  drawing: the action changes that entry and the folders for it only, and it does not depend on what is at
  places to which the way of `p` does not lead.
* So it **`Ignores`** all other entries: it leaves them as they are, and whatever is written into one of them
  makes no difference (`fetches_own_entry`). -/

namespace IconModules

open IconModules.Action (Keeps Mirrors)
open Disk (AgreeOff Confined Extends)
open Installation (OnParentWay)

variable {α : Type} {a : Action α} {s : Settings} {partners : Partners} {family family' : String}
  {i i' : Icon} {site x y x' y' : Site} {root p q : Path} {names names' : List String} {l : Location}
  {d : Disk} {force : Bool}

/-! ### Paths of entries -/

/-- What a drawing is known by. -/
def identity (family : String) (i : Icon) : String × String × UInt32 :=
  (family, i.name, i.version)

namespace Settings

/-- The version ends with the first dash, so digits and dashes in the name do no harm. -/
theorem entryName_inj (h : i.entryName = i'.entryName) : i.name = i'.name ∧ i.version = i'.version := by
  have htext := congrArg String.toList h
  rw [toList_entryName, toList_entryName] at htext
  obtain ⟨hversion, hrest⟩ := Text.eq_of_append_cons (not_mem_version (by decide) i.version)
    (not_mem_version (by decide) i'.version) (List.cons.inj htext).2
  rw [Nat.toString_eq_repr, Nat.toString_eq_repr, Nat.toList_repr, Nat.toList_repr] at hversion
  have hnumber := congrArg (Nat.ofDigitChars 10 · 0) hversion
  simp only [Nat.ofDigitChars_toDigits (b := 10) (by decide) (by decide)] at hnumber
  exact ⟨String.ext (List.append_cancel_right hrest), UInt32.toNat_inj.1 hnumber⟩

/-- The way to an entry in the folder of its family. -/
def entryWay (family : String) (i : Icon) : List String :=
  ["gen", "tmp", "sot", "icons"] ++ ([family] ++ [i.entryName])

theorem identity_of_entryWay (h : entryWay family i = entryWay family' i') :
    identity family i = identity family' i' := by
  have hends := List.append_cancel_left h
  obtain ⟨rfl, hentry⟩ := List.cons.inj hends
  obtain ⟨hname, hversion⟩ := entryName_inj (List.cons.inj hentry).1
  rw [identity, identity, hname, hversion]

/-- Different drawings have different entries. -/
theorem cachePath_inj (hf : IsName family) (hi : '/' ∉ i.name.toList) (hf' : IsName family')
    (hi' : '/' ∉ i'.name.toList) :
    s.cachePath family i = s.cachePath family' i' ↔ identity family i = identity family' i' := by
  constructor
  · intro h
    have hmoves := (cachePath_under_of_isName (s := s) hf hi).moves
    rw [h, (cachePath_under_of_isName hf' hi').moves] at hmoves
    have hways := (List.map_inj_right fun _ _ => Path.Step.into.inj).1 (List.append_cancel_left hmoves)
    exact (identity_of_entryWay hways).symm
  · intro h
    simp only [identity, Prod.mk.injEq] at h
    obtain ⟨rfl, hname, hversion⟩ := h
    simp only [cachePath, Icon.entryName, hname, hversion]

end Settings

/-! ### Looking after one entry -/

/-- Sites with the same journal and the same files apart from what is at `l`, where `p` does not come by. -/
structure Aside (p : Path) (l : Location) (x y : Site) : Prop where
  journal : y.journal = x.journal
  plain : x.disk.tree.Plain
  off : ¬ x.disk.OnWay p l
  same : AgreeOff l x.disk y.disk

namespace Aside

theorem grow (h : Aside p l x y) (hgrown : Extends x.disk x'.disk) (hjournal : y'.journal = x'.journal)
    (hsame : AgreeOff l x'.disk y'.disk) : Aside p l x' y' :=
  ⟨hjournal, hgrown.plain h.plain, fun hway => h.off ((Disk.onWay_of_home hgrown.home).1 hway), hsame⟩

theorem record (e : Event) : Mirrors (Aside p l) (Action.record e) (Action.record e) :=
  fun _ _ h => ⟨rfl, h.grow (.refl _) (congrArg (· ++ [e]) h.journal) h.same⟩

theorem holds : Mirrors (Aside p l) (Action.holds p) (Action.holds p) :=
  fun _ _ h => ⟨congrArg Except.ok (h.same.holds h.off h.plain), h⟩

theorem read : Mirrors (Aside p l) (Action.inspect p (·.read p)) (Action.inspect p (·.read p)) := by
  intro x y h
  rw [Action.perform_inspect, Action.perform_inspect, h.same.read h.off h.plain]
  exact ⟨rfl, h⟩

theorem download (url : String) :
    Mirrors (Aside p l) (Action.download partners url) (Action.download partners url) := by
  intro x y h
  rw [Cache.perform_download, Cache.perform_download, h.journal]
  exact ⟨rfl, h.grow (.refl _) rfl h.same⟩

theorem makeParent : Mirrors (Aside p l) (Action.makeParent p) (Action.makeParent p) := by
  unfold Action.makeParent
  split
  · rename_i above habove
    intro x y h
    obtain ⟨hsame, hafter⟩ :=
      h.same.makeFolders (fun hway => h.off (Disk.onWay_of_parent? habove hway)) h.plain
    rw [Action.makeFolders, Action.perform_carryOut, Action.perform_carryOut, hsame]
    exact ⟨rfl, h.grow (x.disk.makeFolders_extends above).1 h.journal hafter⟩
  · exact .pure _

theorem write (c : Octets) :
    Mirrors (Aside p l) (Action.change p (·.write p c)) (Action.change p (·.write p c)) := by
  intro x y h
  have hwrite := h.same.write h.off h.plain c
  rw [Action.perform_change, Action.perform_change]
  cases hx : x.disk.write p c with
  | error e =>
    rw [hx] at hwrite
    generalize y.disk.write p c = r at hwrite
    cases hwrite
    exact ⟨rfl, h⟩
  | ok d =>
    obtain ⟨place, hplace, hput⟩ := Disk.write_ok hx
    rw [hx] at hwrite
    generalize y.disk.write p c = r at hwrite
    cases hwrite with
    | ok hsame => exact ⟨rfl, h.grow (hput.stored hplace).grown h.journal hsame⟩

end Aside

namespace Cache

/-- The action looks after the entry of `p`: it changes that entry and the folders for it only, keeps what is a
folder or a file, and does not depend on what is at places where `p` does not come by. -/
structure Tends (p : Path) (a : Action α) : Prop where
  mirrors : ∀ l, Mirrors (Aside p l) a a
  confined : ∀ d : Disk, Keeps (fun x => Confined (· = d.place p) (OnParentWay d p) d x.disk) a
  extended : ∀ d : Disk, Keeps (fun x => Extends d x.disk) a

theorem tends_store (c : Octets) : Tends p (store p c) where
  mirrors _ := Aside.makeParent.bind fun _ => Aside.write c
  confined _ := Generation.keeps_store_confined (fun _ hk => .inr hk) (by rfl) c
  extended _ := keeps_store (fun x above hx => hx.trans (x.makeFolders_extends above).1)
    (fun _ _ _ _ hx hstored => hx.trans hstored.grown) c

theorem tends_ensure (force : Bool) :
    Tends (s.cachePath family i) (ensure s partners family i force) where
  mirrors l := mirrors_ensure Aside.record Aside.holds Aside.download
    (fun c => (tends_store c).mirrors l) force
  confined d := keeps_ensure (Assembly.keepsRecords_disk _) (fun c => (tends_store c).confined d) force
  extended d := keeps_ensure (Assembly.keepsRecords_disk _) (fun c => (tends_store c).extended d) force

theorem tends_drawing : Tends (s.cachePath family i) (drawing s partners family i) where
  mirrors l := mirrors_drawing Aside.record Aside.holds Aside.download
    (fun c => (tends_store c).mirrors l) Aside.read
  confined d := keeps_drawing (Assembly.keepsRecords_disk _) (fun c => (tends_store c).confined d)
  extended d := keeps_drawing (Assembly.keepsRecords_disk _) (fun c => (tends_store c).extended d)

/-! ### Other entries -/

/-- The action does not touch the entry to which `q` leads. Nothing changes at its place, but for a folder that
is made there if the way to the root itself goes that way; and whatever is written into the entry, the action
does the same as without, and leaves the same apart from what was written. -/
structure Ignores (root q : Path) (site : Site) (a : Action α) : Prop where
  kept : (a.perform site).2.disk.tree.get? (site.disk.place q) = site.disk.tree.get? (site.disk.place q) ∨
    site.disk.tree.get? (site.disk.place q) = none ∧
      (a.perform site).2.disk.tree.get? (site.disk.place q) = some .folder ∧
      site.disk.OnWay root (site.disk.place q)
  unread : ∀ c e, site.disk.write q c = .ok e → ∃ d, (a.perform site).2.disk.write q c = .ok d ∧
    a.perform { site with disk := e } = ((a.perform site).1, { (a.perform site).2 with disk := d })

/-- Nothing changes where the way of the entry does not lead. -/
theorem Tends.same (h : Tends p a) (ht : x.disk.tree.Plain) (hl : l ≠ x.disk.place p)
    (hoff : ¬ x.disk.OnWay p l) : (a.perform x).2.disk.tree.get? l = x.disk.tree.get? l := by
  refine (h.confined x.disk x (.refl ht)).same hl ?_
  rintro ⟨above, habove, hway⟩
  exact hoff (Disk.onWay_of_parent? habove hway)

section

variable (hp : Path.Under root names p) (hq : Path.Under root names' q) (hne : names' ≠ names)
include hp hq hne

theorem place_ne : d.place q ≠ d.place p := by
  rw [Disk.place_along hp.toAlong, Disk.place_along hq.toAlong]
  exact fun he => hne (List.append_cancel_left he)

variable (hlength : names'.length = names.length)
include hlength

/-- An entry is on the way to no other entry, unless it is on the way to the root. -/
theorem onWay_root_of_onWay (hway : d.OnWay p (d.place q)) : d.OnWay root (d.place q) := by
  rcases Disk.onWay_along hp.toAlong hway with hroot | ⟨more, hmore, he⟩
  · exact hroot
  · rw [Disk.place_along hq.toAlong] at he
    obtain rfl := List.append_cancel_left he
    exact absurd (hmore.eq_of_length hlength) hne

/-- An entry that can be written is not on the way to another one: the way to the root leads through folders. -/
theorem off_of_placeToWrite (ht : d.tree.Plain) (hw : d.placeToWrite q = .ok l) :
    ¬ d.OnWay p (d.place q) := by
  intro hway
  obtain ⟨above, habove⟩ := hq.exists_parent
  have hwalked := Disk.walked_of_placeToWrite ht habove hw
  have hfolder := ((Disk.walked_iff (hq.parent? habove)).1 hwalked).1 _
    (onWay_root_of_onWay hp hq hne hlength hway)
  obtain ⟨-, rfl, _, _, -, -, -, -, -, hnone | ⟨c, hfile⟩⟩ := Disk.placeToWrite_eq ht hw
  · simp [hnone] at hfolder
  · simp [hfile] at hfolder

theorem Tends.ignores (h : Tends p a) (ht : site.disk.tree.Plain) : Ignores root q site a where
  kept := by
    refine ((h.confined site.disk site (.refl ht)).get? _ (place_ne hp hq hne)).imp_right ?_
    rintro ⟨hnone, hfolder, above, habove, hway⟩
    exact ⟨hnone, hfolder, onWay_root_of_onWay hp hq hne hlength (Disk.onWay_of_parent? habove hway)⟩
  unread c e hwrite := by
    obtain ⟨l, hw, -⟩ := Disk.write_ok hwrite
    have hput := Disk.write_place ht hwrite
    obtain rfl := (Disk.placeToWrite_eq ht hw).2.1
    have hother := place_ne hp hq hne (d := site.disk)
    have hoff := off_of_placeToWrite hp hq hne hlength ht hw
    obtain ⟨hresult, hafter⟩ := h.mirrors _ site { site with disk := e }
      ⟨rfl, ht, hoff, .of_put hput⟩
    -- the entry can still be written, and on the other site it still holds what was written
    have hextends := h.extended site.disk site (.refl _)
    have hkept := h.same ht hother hoff
    obtain ⟨d, hd⟩ := (Disk.puts_write q c).of_place _ _ (hextends.placeToWrite_of_same ht hw hkept)
    have hput' := Disk.write_place (hextends.plain ht) hd
    rw [Disk.place_of_home hextends.home] at hput'
    have hwritten := h.same (x := { site with disk := e }) (hput.plain ht)
      (Disk.place_of_home hput.home p ▸ hother) (fun hway => hoff ((Disk.onWay_of_home hput.home).1 hway))
    have hdisk : (a.perform { site with disk := e }).2.disk = d := by
      refine Disk.ext_get? (hafter.same.home.trans hput'.home.symm) fun k => ?_
      rw [hput'.get?]
      split
      · rename_i hk
        rw [hk, hwritten, hput.get?, if_pos rfl]
      · rename_i hk
        exact hafter.same.get? k hk
    exact ⟨d, hd, Prod.ext hresult ((Site.mk.injEq _ _ _ _).mpr ⟨hdisk, hafter.journal⟩)⟩

end

/-- A drawing is fetched by one download or none, and into its own entry only. Entries of other families, names
and versions are at other paths, and fetching a drawing or looking for it neither changes them nor depends on
what they hold. -/
theorem fetches_own_entry (ht : site.disk.tree.Plain) :
    Fetches s partners family i force site ∧
      (IsName family → '/' ∉ i.name.toList → ∀ family' i', IsName family' → '/' ∉ i'.name.toList →
        (s.cachePath family i = s.cachePath family' i' ↔ identity family i = identity family' i') ∧
          (identity family i ≠ identity family' i' →
            Ignores s.root (s.cachePath family' i') site (ensure s partners family i force) ∧
              Ignores s.root (s.cachePath family' i') site (drawing s partners family i))) := by
  refine ⟨ensure_fetches ht, fun hf hi family' i' hf' hi' => ⟨Settings.cachePath_inj hf hi hf' hi', ?_⟩⟩
  intro hother
  have hp : Path.Under s.root (Settings.entryWay family i) (s.cachePath family i) :=
    Settings.cachePath_under_of_isName hf hi
  have hq : Path.Under s.root (Settings.entryWay family' i') (s.cachePath family' i') :=
    Settings.cachePath_under_of_isName hf' hi'
  have hways : Settings.entryWay family' i' ≠ Settings.entryWay family i := fun he =>
    hother (Settings.identity_of_entryWay he).symm
  exact ⟨(tends_ensure force).ignores hp hq hways rfl ht, tends_drawing.ignores hp hq hways rfl ht⟩

/-- An entry is downloaded again, and the one of a drawing with a dash in its name is another one. -/
theorem fetches_own_entry_dashed :
    brokenSite.disk.tree.Plain ∧
      (∃ d, brokenSite.disk.write (twice.cachePath "A" ⟨"search", 1, [], []⟩) (Text.encode "<html>") = .ok d ∧
        (ensure twice servingSecond "A" ⟨"search", 1, [], []⟩ true).perform brokenSite =
          (.ok (twice.cachePath "A" ⟨"search", 1, [], []⟩),
            { asked twice "A" ⟨"search", 1, [], []⟩ true brokenSite with disk := d })) ∧
      Ignores twice.root (twice.cachePath "A" ⟨"1-search", 1, [], []⟩) brokenSite
        (drawing twice servingSecond "A" ⟨"search", 1, [], []⟩) := by
  have ht : brokenSite.disk.tree.Plain := Tree.plain_of_entries (by decide)
  obtain ⟨hfetches, hown⟩ :
      Fetches twice servingSecond "A" ⟨"search", 1, [], []⟩ true brokenSite ∧ _ := fetches_own_entry ht
  obtain ⟨-, hignores⟩ := hown (by decide) (by decide) "A" ⟨"1-search", 1, [], []⟩ (by decide) (by decide)
  have hsome : (brokenSite.disk.write (twice.cachePath "A" ⟨"search", 1, [], []⟩)
      (Text.encode "<html>")).toOption.isSome = true := by decide +kernel
  obtain ⟨d, hd⟩ := Option.isSome_iff_exists.1 hsome
  have hwrite := ok_of_toOption hd
  exact ⟨ht, ⟨d, hwrite, hfetches.written rfl _ rfl d hwrite⟩, (hignores (by decide)).2⟩

end Cache
end IconModules
