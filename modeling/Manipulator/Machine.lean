import Mathlib.Logic.Basic

/-
  Labelled machines with guarded, fallible steps.

  A machine consumes one input at a time. An input may be
  disabled in a state, and an enabled step may still raise
  an error. A run is a finite sequence of enabled steps none
  of which raises. Runs are indexed by their inputs, so that
  two runs over the same inputs can be compared.

  Main declarations:
    * `bind_eq_ok`, `pure_eq_ok`, `exists_of_isOk`
    * `Machine`, `Machine.Run`
    * `Machine.Run.invariant`
    * `Machine.Run.simulate`, `Machine.Run.simulate_runs`
    * `Machine.restrict`, `Machine.keeping`
    * `Machine.run_restrict_iff_keeping`
    * `Machine.exec`, `Machine.exists_run_of_exec`
    * `History.Each`
-/

------------------------------------------------------------
-- Fallible Steps
------------------------------------------------------------

namespace Manipulator

/- A sequence returns when both of its parts return. -/
theorem bind_eq_ok
    {E α β : Type}
    {x : Except E α} {f : α → Except E β} {b : β} :
    (x >>= f) = .ok b ↔ ∃ a, x = .ok a ∧ f a = .ok b := by
  cases x with
  | error e => simp [bind, Except.bind]
  | ok a => simp [bind, Except.bind]

theorem pure_eq_ok {E α : Type} {a b : α} :
    (pure a : Except E α) = .ok b ↔ a = b :=
  Except.ok.injEq a b ▸ Iff.rfl

theorem exists_of_isOk
    {E α : Type} {x : Except E α} (hOk : x.isOk = true) :
    ∃ a, x = .ok a := by
  cases x with
  | error e => cases hOk
  | ok a => exact ⟨a, rfl⟩

------------------------------------------------------------
-- Machines And Runs
------------------------------------------------------------

/- A machine over states `S`, inputs `I` and errors `E`. -/
structure Machine (S I E : Type) where
  Enabled : S → I → Prop
  step : S → I → Except E S

namespace Machine

variable {S I E : Type}

/-
  `M.Run s is t` holds when the inputs `is`, taken in order
  from `s`, are all enabled, raise nothing and end in `t`.
-/
inductive Run
    (M : Machine S I E)
    (s : S) : List I → S → Prop where
| nil : Run M s [] s
| snoc
    {is : List I} {t u : S} {i : I}
    (hRun : Run M s is t)
    (hEnabled : M.Enabled t i)
    (hStep : M.step t i = .ok u) :
    Run M s (is ++ [i]) u

namespace Run

variable {M : Machine S I E}

/-
  A property of the initial state that every step of the
  machine preserves holds at the end of every run.
-/
theorem invariant
    {P : S → Prop}
    {s t : S} {is : List I}
    (hRun : M.Run s is t)
    (hInit : P s)
    (hPreserved :
      ∀ t i u, P t → M.Enabled t i →
        M.step t i = .ok u → P u) :
    P t := by
  induction hRun with
  | nil => exact hInit
  | snoc _ hEnabled hStep ih =>
      exact hPreserved _ _ _ ih hEnabled hStep

/- Runs compose. -/
theorem trans
    {s t u : S} {is js : List I}
    (hFirst : M.Run s is t)
    (hSecond : M.Run t js u) :
    M.Run s (is ++ js) u := by
  induction hSecond with
  | nil => simpa using hFirst
  | snoc _ hEnabled hStep ih =>
      rw [← List.append_assoc]
      exact .snoc ih hEnabled hStep

/- The last step of a run. -/
theorem of_snoc
    {s u : S} {is : List I} {i : I}
    (hRun : M.Run s (is ++ [i]) u) :
    ∃ t, M.Run s is t ∧ M.Enabled t i ∧ M.step t i = .ok u := by
  generalize hInputs : is ++ [i] = js at hRun
  cases hRun with
  | nil => simp at hInputs
  | snoc hRun hEnabled hStep =>
      rcases List.append_inj' hInputs rfl with ⟨rfl, hLast⟩
      cases hLast
      exact ⟨_, hRun, hEnabled, hStep⟩

theorem eq_of_nil
    {s t : S}
    (hRun : M.Run s [] t) : t = s := by
  generalize hInputs : ([] : List I) = is at hRun
  cases hRun with
  | nil => rfl
  | snoc => simp at hInputs

/- A run of one step. -/
theorem single
    {s t : S} {i : I}
    (hEnabled : M.Enabled s i)
    (hStep : M.step s i = .ok t) :
    M.Run s [i] t :=
  .snoc .nil hEnabled hStep

end Run

------------------------------------------------------------
-- Simulation
------------------------------------------------------------

/-
  A machine whose steps can answer every step of another one
  has a run for every run of the other.
-/
theorem Run.simulate
    {T J F : Type}
    {M : Machine S I E} {N : Machine T J F}
    {R : S → T → Prop} {f : I → J}
    {s u : S} {t : T} {is : List I}
    (hRun : M.Run s is u)
    (hRelated : R s t)
    (hAnswer :
      ∀ s t i u, R s t → M.Enabled s i →
        M.step s i = .ok u →
          N.Enabled t (f i) ∧
            ∃ v, N.step t (f i) = .ok v ∧ R u v) :
    ∃ v, N.Run t (is.map f) v ∧ R u v := by
  induction hRun with
  | nil => exact ⟨t, .nil, hRelated⟩
  | snoc _ hEnabled hStep ih =>
      rcases ih with ⟨v, hOther, hRelated⟩
      rcases hAnswer _ _ _ _ hRelated hEnabled hStep with
        ⟨hEnabled, w, hStep, hRelated⟩
      rw [List.map_append]
      exact ⟨w, .snoc hOther hEnabled hStep, hRelated⟩

/- The same, where the answer to a step is a whole run. -/
theorem Run.simulate_runs
    {T J F : Type}
    {M : Machine S I E} {N : Machine T J F}
    {R : S → T → Prop}
    {s u : S} {t : T} {is : List I}
    (hRun : M.Run s is u)
    (hRelated : R s t)
    (hAnswer :
      ∀ s t i u, R s t → M.Enabled s i →
        M.step s i = .ok u → ∃ js v, N.Run t js v ∧ R u v) :
    ∃ js v, N.Run t js v ∧ R u v := by
  induction hRun with
  | nil => exact ⟨[], t, .nil, hRelated⟩
  | snoc _ hEnabled hStep ih =>
      rcases ih with ⟨js, v, hOther, hRelated⟩
      rcases hAnswer _ _ _ _ hRelated hEnabled hStep with
        ⟨ks, w, hMore, hRelated⟩
      exact ⟨js ++ ks, w, hOther.trans hMore, hRelated⟩

------------------------------------------------------------
-- Restricted Machines
------------------------------------------------------------

/-
  The machine that takes only the steps whose state and
  input meet `Allowed`: its runs are the runs of `M` all of
  whose steps meet the condition.
-/
def restrict
    (M : Machine S I E)
    (Allowed : S → I → Prop) : Machine S I E where
  Enabled := fun s i => M.Enabled s i ∧ Allowed s i
  step := M.step

instance
    {M : Machine S I E}
    {Allowed : S → I → Prop}
    [∀ s i, Decidable (M.Enabled s i)]
    [∀ s i, Decidable (Allowed s i)]
    (s : S) (i : I) :
    Decidable ((M.restrict Allowed).Enabled s i) :=
  inferInstanceAs (Decidable (M.Enabled s i ∧ Allowed s i))

/- A restricted run is a run. -/
theorem Run.of_restrict
    {M : Machine S I E}
    {Allowed : S → I → Prop}
    {s t : S} {is : List I}
    (hRun : (M.restrict Allowed).Run s is t) :
    M.Run s is t := by
  induction hRun with
  | nil => exact .nil
  | snoc _ hEnabled hStep ih =>
      exact .snoc ih hEnabled.1 hStep

/- A run, when the condition is always met. -/
theorem Run.to_restrict
    {M : Machine S I E}
    {Allowed : S → I → Prop}
    {s t : S} {is : List I}
    (hRun : M.Run s is t)
    (hAllowed : ∀ s i, Allowed s i) :
    (M.restrict Allowed).Run s is t := by
  induction hRun with
  | nil => exact .nil
  | snoc _ hEnabled hStep ih =>
      exact .snoc ih ⟨hEnabled, hAllowed _ _⟩ hStep

/-
  The machine that takes only the steps that lead to a state
  with the property `P`.
-/
def keeping
    (M : Machine S I E)
    (P : S → Prop) : Machine S I E :=
  M.restrict fun s i => ∀ t, M.step s i = .ok t → P t

/- All states of such a run have the property. -/
theorem Run.of_keeping
    {M : Machine S I E} {P : S → Prop}
    {s t : S} {is : List I}
    (hRun : (M.keeping P).Run s is t)
    (hInit : P s) : P t := by
  apply hRun.invariant hInit
  intro t i u _ hEnabled hStep
  exact hEnabled.2 u hStep

/-
  When a condition on a step decides whether the step keeps
  the property, the runs all of whose steps meet it are the
  runs all of whose states have the property.
-/
theorem run_restrict_iff_keeping
    {M : Machine S I E}
    {Allowed : S → I → Prop} {P : S → Prop}
    {s t : S} {is : List I}
    (hInit : P s)
    (hDecides :
      ∀ t i u, P t → M.Enabled t i → M.step t i = .ok u →
        (Allowed t i ↔ P u)) :
    (M.restrict Allowed).Run s is t ↔
      (M.keeping P).Run s is t := by
  constructor
  · intro hRun
    have hBoth : P t ∧ (M.keeping P).Run s is t := by
      induction hRun with
      | nil => exact ⟨hInit, .nil⟩
      | snoc _ hEnabled hStep ih =>
          have hNext :=
            (hDecides _ _ _ ih.1 hEnabled.1 hStep).mp hEnabled.2
          refine ⟨hNext, .snoc ih.2 ⟨hEnabled.1, ?_⟩ hStep⟩
          intro u hOther
          rw [show M.step _ _ = _ from hStep] at hOther
          cases hOther
          exact hNext
    exact hBoth.2
  · intro hRun
    induction hRun with
    | nil => exact .nil
    | snoc hPrefix hEnabled hStep ih =>
        have hBefore := hPrefix.of_keeping hInit
        have hAfter := hEnabled.2 _ hStep
        refine .snoc ih ⟨hEnabled.1, ?_⟩ hStep
        exact
          (hDecides _ _ _ hBefore hEnabled.1 hStep).mpr hAfter

------------------------------------------------------------
-- Executing A List Of Inputs
------------------------------------------------------------

/- Take the inputs in order, stopping at the first failure. -/
def exec
    (M : Machine S I E)
    [∀ s i, Decidable (M.Enabled s i)] :
    S → List I → Option S
| s, [] => some s
| s, i :: is =>
    if M.Enabled s i then
      match M.step s i with
      | .ok t => M.exec t is
      | .error _ => none
    else
      none

/- What `exec` computes is the end of a run. -/
theorem run_of_exec
    {M : Machine S I E}
    [∀ s i, Decidable (M.Enabled s i)]
    {s t : S} {is : List I}
    (hExec : M.exec s is = some t) :
    M.Run s is t := by
  induction is generalizing s with
  | nil =>
      obtain rfl : s = t := Option.some.inj hExec
      exact .nil
  | cons i is ih =>
      simp only [exec] at hExec
      split at hExec
      · rename_i hEnabled
        split at hExec
        · rename_i u hStep
          exact (Run.single hEnabled hStep).trans (ih hExec)
        · cases hExec
      · cases hExec

/- A run to a state that was tested while it was computed. -/
theorem exists_run_of_exec
    {M : Machine S I E}
    [∀ s i, Decidable (M.Enabled s i)]
    {s : S} {is : List I} {p : S → Bool}
    (hExec : (M.exec s is).any p = true) :
    ∃ t, M.Run s is t ∧ p t = true := by
  rcases (Option.any_eq_true p _).mp hExec with
    ⟨t, hEnd, hTest⟩
  exact ⟨t, run_of_exec hEnd, hTest⟩

end Machine

------------------------------------------------------------
-- Histories
------------------------------------------------------------

/-
  A history lists events, the newest first. `Each P h` says
  of every event that `P` holds of it and of the events that
  came before it.
-/
def History.Each
    {Ev : Type}
    (P : Ev → List Ev → Prop) : List Ev → Prop
| [] => True
| event :: earlier => P event earlier ∧ Each P earlier

namespace History.Each

variable {Ev : Type} {P Q : Ev → List Ev → Prop}

instance decidableEach
    [∀ event earlier, Decidable (P event earlier)] :
    (h : List Ev) → Decidable (Each P h)
| [] => .isTrue trivial
| event :: earlier =>
    have := decidableEach earlier
    inferInstanceAs (Decidable (P event earlier ∧ Each P earlier))

theorem imp
    {h : List Ev}
    (hEach : Each P h)
    (hImp : ∀ event earlier, P event earlier → Q event earlier) :
    Each Q h := by
  induction h with
  | nil => exact trivial
  | cons event earlier ih =>
      exact ⟨hImp _ _ hEach.1, ih hEach.2⟩

theorem and
    {h : List Ev}
    (hLeft : Each P h)
    (hRight : Each Q h) :
    Each (fun event earlier => P event earlier ∧ Q event earlier)
      h := by
  induction h with
  | nil => exact trivial
  | cons event earlier ih =>
      exact ⟨⟨hLeft.1, hRight.1⟩, ih hLeft.2 hRight.2⟩

/- Laws that agree on each event hold of the same histories. -/
theorem congr
    {h : List Ev}
    (hEach :
      Each (fun event earlier => P event earlier ↔ Q event earlier)
        h) :
    Each P h ↔ Each Q h := by
  induction h with
  | nil => exact Iff.rfl
  | cons event earlier ih =>
      exact and_congr hEach.1 (ih hEach.2)

/- What holds of all events held of them at any time. -/
theorem each
    {h : List Ev}
    (hEach : Each P h) :
    Each (fun event earlier => Each P (event :: earlier)) h := by
  induction h with
  | nil => exact trivial
  | cons event earlier ih => exact ⟨hEach, ih hEach.2⟩

end History.Each

end Manipulator
