import IconModules.Proofs.Generation.Keeping

/-! # Actions on two sites

`Action.Mirrors R a b` says that on sites in the relation `R` the actions `a` and `b` end the same way, and that
they leave sites in that relation. It is enough to know this of the single actions of the cache: then a drawing
is looked for in the same way on both sites (`Cache.mirrors_drawing`). -/

namespace IconModules

variable {α β : Type} {R : Site → Site → Prop}

namespace Action

/-- On sites in the relation `R` the actions end the same way, and they leave sites in that relation. -/
def Mirrors (R : Site → Site → Prop) (a b : Action α) : Prop :=
  ∀ x y, R x y → (b.perform y).1 = (a.perform x).1 ∧ R (a.perform x).2 (b.perform y).2

namespace Mirrors

variable {a a' : Action α} {b b' : α → Action β}

theorem pure (v : α) : Mirrors R (Pure.pure v : Action α) (Pure.pure v) :=
  fun _ _ h => ⟨rfl, h⟩

theorem throw (f : Failure) : Mirrors R (throw f : Action α) (throw f) :=
  fun _ _ h => ⟨rfl, h⟩

/-- What follows may depend on what was found. -/
theorem bind_ok (ha : Mirrors R a a')
    (hb : ∀ v x after, a.perform x = (.ok v, after) → Mirrors R (b v) (b' v)) :
    Mirrors R (a >>= b) (a' >>= b') := by
  intro x y h
  obtain ⟨hsame, hafter⟩ := ha x y h
  rw [perform_bind, perform_bind]
  rcases hx : a.perform x with ⟨r, x'⟩
  rcases hy : a'.perform y with ⟨r', y'⟩
  rw [hx, hy] at hsame hafter
  obtain rfl : r' = r := hsame
  cases r' with
  | error f => exact ⟨rfl, hafter⟩
  | ok v => exact hb v x x' hx x' y' hafter

theorem bind (ha : Mirrors R a a') (hb : ∀ v, Mirrors R (b v) (b' v)) :
    Mirrors R (a >>= b) (a' >>= b') :=
  ha.bind_ok fun v _ _ _ => hb v

end Mirrors
end Action

/-! ### The cache -/

namespace Cache

open IconModules.Action (Mirrors)

variable {s : Settings} {partners : Partners} {family : String} {i : Icon}
  (hrecord : ∀ e, Mirrors R (Action.record e) (Action.record e))
include hrecord

section

variable (hholds : Mirrors R (Action.holds (s.cachePath family i)) (Action.holds (s.cachePath family i)))
  (hdownload : ∀ url, Mirrors R (Action.download partners url) (Action.download partners url))
  (hstore : ∀ c, Mirrors R (store (s.cachePath family i) c) (store (s.cachePath family i) c))
include hholds hdownload hstore

theorem mirrors_ensure (force : Bool) :
    Mirrors R (ensure s partners family i force) (ensure s partners family i force) := by
  unfold ensure
  refine hholds.bind fun v => ?_
  dsimp only
  split
  · exact (hrecord _).bind fun _ => (hdownload _).bind fun c => (hstore c).bind fun _ => .pure _
  · exact .pure _

variable (hread : Mirrors R (Action.inspect (s.cachePath family i) (·.read (s.cachePath family i)))
    (Action.inspect (s.cachePath family i) (·.read (s.cachePath family i))))
include hread

theorem mirrors_repair (left : Nat) :
    Mirrors R (repair s partners family i left (s.cachePath family i))
      (repair s partners family i left (s.cachePath family i)) := by
  have hcontents : Mirrors R (contents s (s.cachePath family i)) (contents s (s.cachePath family i)) :=
    hread.bind fun _ => .pure _
  induction left with
  | zero =>
    unfold repair
    refine hcontents.bind fun svg => ?_
    split
    · exact .pure _
    · exact .throw _
  | succ left ih =>
    unfold repair
    refine hcontents.bind fun svg => ?_
    split
    · exact .pure _
    · refine (hrecord _).bind fun _ => (hrecord _).bind fun _ =>
        (mirrors_ensure hrecord hholds hdownload hstore true).bind_ok fun path _ _ hensure => ?_
      rw [ensure_path hensure]
      exact ih

/-- A drawing is looked for in the same way, however often its entry is downloaded again. -/
theorem mirrors_drawing :
    Mirrors R (drawing s partners family i) (drawing s partners family i) := by
  refine (mirrors_ensure hrecord hholds hdownload hstore false).bind_ok fun path _ _ hensure => ?_
  rw [ensure_path hensure]
  exact mirrors_repair hrecord hholds hdownload hstore hread _

end

end Cache
end IconModules
