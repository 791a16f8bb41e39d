/-!
# Labelled transition systems

A trace lists the labels of consecutive steps. The rules carry what one step
preserves to what a whole trace preserves.
-/

namespace Transition

variable {σ α : Type}

inductive Trace (step : α → σ → σ → Prop) : σ → List α → σ → Prop where
  | nil (s : σ) : Trace step s [] s
  | cons {s t u : σ} {a : α} {as : List α} (head : step a s t) (tail : Trace step t as u) :
      Trace step s (a :: as) u

namespace Trace

variable {step : α → σ → σ → Prop}

theorem single {s t : σ} {a : α} (h : step a s t) : Trace step s [a] t :=
  cons h (nil t)

theorem append {s t u : σ} {as bs : List α} (h : Trace step s as t) (h' : Trace step t bs u) :
    Trace step s (as ++ bs) u := by
  induction h with
  | nil => exact h'
  | cons head _ ih => exact cons head (ih h')

/-- What every step under a label condition preserves, a trace of such labels does. -/
theorem preserves {I : σ → Prop} {P : α → Prop}
    (hstep : ∀ a s t, P a → I s → step a s t → I t) {s t : σ} {as : List α}
    (h : Trace step s as t) (hP : ∀ a ∈ as, P a) (hI : I s) : I t := by
  induction h with
  | nil => exact hI
  | cons head _ ih =>
      apply ih
      · exact fun a ha => hP a (List.mem_cons_of_mem _ ha)
      · exact hstep _ _ _ (hP _ List.mem_cons_self) hI head

theorem invariant {I : σ → Prop} (hstep : ∀ a s t, I s → step a s t → I t) {s t : σ}
    {as : List α} (h : Trace step s as t) (hI : I s) : I t :=
  h.preserves (P := fun _ => True) (fun a s t _ hs hst => hstep a s t hs hst) (fun _ _ => trivial) hI

/-- Steps that can be taken under weaker conditions make the same trace. -/
theorem weaken {step' : α → σ → σ → Prop} (hstep : ∀ a s t, step a s t → step' a s t) {s t : σ}
    {as : List α} (h : Trace step s as t) : Trace step' s as t := by
  induction h with
  | nil s => exact nil s
  | cons head _ ih => exact cons (hstep _ _ _ head) ih

/-- A relation between start and end that is reflexive and absorbs steps on the left. -/
theorem relates {R : σ → σ → Prop} (hrefl : ∀ s, R s s)
    (hstep : ∀ a s t u, step a s t → R t u → R s u) {s t : σ} {as : List α}
    (h : Trace step s as t) : R s t := by
  induction h with
  | nil s => exact hrefl s
  | cons head _ ih => exact hstep _ _ _ _ head ih

end Trace
end Transition
