import IconModules.Proofs.Generation.Places
import IconModules.Proofs.Naming.Agreement
import IconModules.Proofs.Text.Casing
import IconModules.Proofs.Text.Respelling
import IconModules.Settings.Presets

/-! # Addresses of drawings

`Settings.drawingUrl` puts family, icon and version into the template of an address, one after the other.

* A template consists of `UrlPart`s, which are fixed texts and the places of values.
* Putting a value into its places leaves fixed texts without braces and the other places as they are
  (`replace_placeholder`): the word of a place can only begin at an opening brace.
* The values have no braces either (`braceless_value`), because small letters are braces only where the
  letters were. So what is put in is a fixed text for the later replacements, and the three of them fill all
  the places at once (`drawingUrl_filled`). -/

namespace IconModules

/-- The values that an address is made of. -/
inductive UrlField where
  | family
  | icon
  | version
  deriving DecidableEq

/-- A part of the template of an address: a fixed text or the place of a value. -/
inductive UrlPart where
  | text (t : String)
  | field (f : UrlField)

/-- A text without braces. -/
def Braceless (s : String) : Prop :=
  '\x7b' ∉ s.toList ∧ '\x7d' ∉ s.toList

instance (s : String) : Decidable (Braceless s) :=
  inferInstanceAs (Decidable (_ ∧ _))

namespace UrlField

/-- How the place of a value is marked in a template. -/
def placeholder : UrlField → String
  | .family => "\x7bfamily\x7d"
  | .icon => "\x7bicon\x7d"
  | .version => "\x7bversion\x7d"

/-- What an address has in the place: the family in small letters and without spaces, the name of the icon,
and the version as a decimal number. -/
def value (family name : String) (version : UInt32) : UrlField → String
  | .family => String.ofList ((Text.lowerCase family).toList.filter (· != ' '))
  | .icon => name
  | .version => toString version.toNat

end UrlField

namespace UrlPart

/-- How the part stands in the template. -/
def written : UrlPart → String
  | text t => t
  | field f => f.placeholder

/-- How the part stands in an address. -/
def filled (value : UrlField → String) : UrlPart → String
  | text t => t
  | field f => value f

/-- A fixed text has no braces. -/
def Plain : UrlPart → Prop
  | text t => Braceless t
  | field _ => True

instance : (p : UrlPart) → Decidable p.Plain
  | text t => inferInstanceAs (Decidable (Braceless t))
  | field _ => inferInstanceAs (Decidable True)

/-- The part after a value is put into its places. -/
def put (f : UrlField) (v : String) : UrlPart → UrlPart
  | text t => text t
  | field g => if g = f then text v else field g

end UrlPart

variable {f g : UrlField} {v family name : String} {parts : List UrlPart}

/-! ### One replacement -/

namespace UrlField

/-- What stands between the braces of a place. -/
def word : UrlField → List Char
  | .family => "family".toList
  | .icon => "icon".toList
  | .version => "version".toList

theorem toList_placeholder (f : UrlField) : f.placeholder.toList = '\x7b' :: (f.word ++ ['\x7d']) := by
  cases f <;> decide

theorem not_mem_word (f : UrlField) : '\x7b' ∉ f.word ∧ '\x7d' ∉ f.word := by
  cases f <;> decide

theorem word_inj (h : f.word = g.word) : f = g := by
  cases f <;> cases g <;> revert h <;> decide

/-- The place of one value is not the beginning of the place of another. -/
theorem not_starts (h : g ≠ f) (s : List Char) :
    ¬ f.placeholder.toList <+: g.placeholder.toList ++ s := by
  rintro ⟨rest, he⟩
  rw [toList_placeholder, toList_placeholder] at he
  simp only [List.cons_append, List.append_assoc, List.nil_append, List.cons.injEq, true_and] at he
  exact h (word_inj (Text.eq_of_append_cons f.not_mem_word.2 g.not_mem_word.2 he).1).symm

/-- No place begins in a text without opening braces. -/
theorem silent_of_noBrace (f : UrlField) {front : List Char} (h : '\x7b' ∉ front) (s : List Char) :
    Text.Silent (Text.wordSpan f.placeholder.toList) front s := by
  refine Text.silent_of_not_mem (fun t ht => ?_) h
  rw [toList_placeholder] at ht
  exact Text.head?_of_wordSpan ht

/-- Replacing leaves the place of another value as it is. -/
theorem respelled_other (h : g ≠ f) (put s : List Char) :
    Text.respelled f.placeholder.toList put (g.placeholder.toList ++ s) =
      g.placeholder.toList ++ Text.respelled f.placeholder.toList put s := by
  have hstart := not_starts h s
  have hinside : '\x7b' ∉ g.word ++ ['\x7d'] := fun hm =>
    (List.mem_append.1 hm).elim g.not_mem_word.1 (by decide)
  rw [toList_placeholder g, List.cons_append] at hstart ⊢
  rw [Text.respelled_cons hstart, Text.respelled_append (f.silent_of_noBrace hinside s), List.cons_append]

end UrlField

namespace UrlPart

variable {p : UrlPart}

theorem respelled_written (hp : p.Plain) (f : UrlField) (v : String) (s : List Char) :
    Text.respelled f.placeholder.toList v.toList (p.written.toList ++ s) =
      (p.put f v).written.toList ++ Text.respelled f.placeholder.toList v.toList s := by
  cases p with
  | text t => exact Text.respelled_append (f.silent_of_noBrace hp.1 s)
  | field g =>
    by_cases he : g = f
    · have hne : f.placeholder.toList ≠ [] := by simp [f.toList_placeholder]
      rw [put, if_pos he, he]
      exact Text.respelled_word hne _ _
    · rw [put, if_neg he]
      exact UrlField.respelled_other he _ _

/-- A value is put into all its places, and nothing else happens. -/
theorem replace_placeholder (h : ∀ p ∈ parts, p.Plain) (f : UrlField) (v : String) :
    Text.replace f.placeholder v (String.join (parts.map written)) =
      String.join ((parts.map (put f v)).map written) := by
  rw [← String.toList_inj, Text.toList_replace, String.toList_join, String.toList_join]
  change Text.respelled _ _ _ = _
  induction parts with
  | nil => rfl
  | cons p parts ih =>
    rw [List.forall_mem_cons] at h
    rw [List.map_cons, List.flatMap_cons, respelled_written h.1, ih h.2]
    rfl

theorem Plain.put (hp : p.Plain) (f : UrlField) (hv : Braceless v) : (p.put f v).Plain := by
  cases p with
  | text t => exact hp
  | field g =>
    by_cases he : g = f
    · rwa [UrlPart.put, if_pos he]
    · rw [UrlPart.put, if_neg he]
      trivial

/-- Values that are put in one after the other fill all places. -/
theorem written_put (value : UrlField → String) (p : UrlPart) :
    (((p.put .family (value .family)).put .icon (value .icon)).put .version (value .version)).written =
      p.filled value := by
  cases p with
  | text t => rfl
  | field f => cases f <;> rfl

end UrlPart

/-! ### The values -/

theorem braceless_version (version : UInt32) : Braceless (toString version.toNat) :=
  ⟨Settings.not_mem_version (by decide) version, Settings.not_mem_version (by decide) version⟩

theorem braceless_value (hfamily : Braceless family) (hname : Braceless name) (version : UInt32)
    (f : UrlField) : Braceless (f.value family name version) := by
  cases f with
  | family =>
    unfold Braceless UrlField.value
    rw [String.toList_ofList]
    exact ⟨fun hm => Text.caseless_openingBrace.not_mem_lowerCase hfamily.1 (List.mem_filter.1 hm).1,
      fun hm => Text.caseless_closingBrace.not_mem_lowerCase hfamily.2 (List.mem_filter.1 hm).1⟩
  | icon => exact hname
  | version => exact braceless_version version

/-! ### The address -/

namespace Settings

/-- The address is the template with every place filled, and nothing else changed. -/
theorem drawingUrl_filled {s : Settings}
    (htemplate : s.drawingTemplate = String.join (parts.map UrlPart.written))
    (hparts : ∀ p ∈ parts, p.Plain) (hfamily : Braceless family) (hname : Braceless name)
    (version : UInt32) : s.drawingUrl family name version =
      String.join (parts.map (UrlPart.filled (UrlField.value family name version))) := by
  have hvalue := braceless_value hfamily hname version
  have hplain : ∀ (f : UrlField) (parts : List UrlPart), (∀ p ∈ parts, p.Plain) →
      ∀ p ∈ parts.map (UrlPart.put f (f.value family name version)), p.Plain := by
    intro f parts h
    rw [List.forall_mem_map]
    exact fun p hp => (h p hp).put f (hvalue f)
  have hspaceless : Text.replace " " "" (Text.lowerCase family) =
      UrlField.value family name version .family := by
    rw [← String.toList_inj, Naming.toList_replace_space]
    exact String.toList_ofList.symm
  have hfirst := hplain .family parts hparts
  calc s.drawingUrl family name version
      = Text.replace UrlField.version.placeholder (UrlField.value family name version .version)
          (Text.replace UrlField.icon.placeholder (UrlField.value family name version .icon)
            (Text.replace UrlField.family.placeholder (UrlField.value family name version .family)
              (String.join (parts.map UrlPart.written)))) := by
        rw [← htemplate, ← hspaceless]
        rfl
    _ = String.join ((((parts.map (UrlPart.put .family (UrlField.value family name version .family))).map
          (UrlPart.put .icon (UrlField.value family name version .icon))).map
            (UrlPart.put .version (UrlField.value family name version .version))).map UrlPart.written) := by
        rw [UrlPart.replace_placeholder hparts, UrlPart.replace_placeholder hfirst,
          UrlPart.replace_placeholder (hplain .icon _ hfirst)]
    _ = String.join (parts.map (UrlPart.filled (UrlField.value family name version))) := by
        rw [List.map_map, List.map_map, List.map_map]
        exact congrArg String.join (List.map_congr_left fun p _ => UrlPart.written_put _ p)

/-- The parts of the address that both editions use. -/
def drawingParts : List UrlPart :=
  [.text "https://fonts.gstatic.com/s/i/", .field .family, .text "/", .field .icon, .text "/v",
    .field .version, .text "/24px.svg?download=true"]

theorem drawingUrl_filled_two_tone :
    (preset .current ⟨"/"⟩).drawingTemplate = String.join (drawingParts.map UrlPart.written) ∧
      (preset .current ⟨"/"⟩).drawingUrl "Material Icons Two Tone" "search" 12 =
        "https://fonts.gstatic.com/s/i/materialiconstwotone/search/v12/24px.svg?download=true" := by
  have htemplate : (preset .current ⟨"/"⟩).drawingTemplate =
      String.join (drawingParts.map UrlPart.written) := by decide
  have hparts : ∀ p ∈ drawingParts, p.Plain := by decide
  refine ⟨htemplate, ?_⟩
  rw [drawingUrl_filled htemplate hparts (by decide) (by decide)]
  decide

end Settings
end IconModules
