import Mathlib.Order.Defs.Unbundled

/-
  Programs with a state that outlives their exceptions.

  What a program did to the state before it threw stays done.
  Relations between the state before and after that hold of
  the parts of a program compose to one that holds of it.

  Main declarations:
    * `Raises`, `Raises.bind`
    * `Effects`, `Effects.exec`, `Effects.exec_bind`
    * `Effects.Keeps`, `Keeps.bind`
    * `Effects.KeepsFrom`, `KeepsFrom.bind`
    * `Effects.Avoids`, `Avoids.bind`
-/

------------------------------------------------------------
-- Programs
------------------------------------------------------------

namespace Manipulator

theorem mapError_ok
    {E F α : Type} (f : E → F) (a : α) :
    (.ok a : Except E α).mapError f = .ok a := rfl

theorem mapError_eq_ok
    {E F α : Type} {f : E → F} {x : Except E α} {a : α} :
    x.mapError f = .ok a ↔ x = .ok a := by
  cases x with
  | error e =>
      constructor
      · intro h
        cases h
      · intro h
        cases h
  | ok b =>
      rw [mapError_ok]
      constructor
      · intro h
        cases h
        rfl
      · intro h
        cases h
        rfl

/- Every error of a result has a property. -/
def Raises {E α : Type} (P : E → Prop) (r : Except E α) : Prop :=
  ∀ e, r = .error e → P e

namespace Raises

variable {E α β : Type} {P : E → Prop}

theorem ok (a : α) : Raises P (.ok a) := by
  intro e hError
  cases hError

theorem error {e : E} (hError : P e) :
    Raises P (.error e : Except E α) := by
  intro e' hSame
  cases hSame
  exact hError

theorem mono
    {Q : E → Prop} {r : Except E α}
    (hRaises : Raises P r)
    (hWeaker : ∀ e, P e → Q e) : Raises Q r :=
  fun e hError => hWeaker e (hRaises e hError)

theorem bind
    {r : Except E α} {f : α → Except E β}
    (hFirst : Raises P r)
    (hNext : ∀ a, r = .ok a → Raises P (f a)) :
    Raises P (r >>= f) := by
  cases r with
  | ok a => exact hNext a rfl
  | error e =>
      intro e' hError
      cases hError
      exact hFirst e rfl

/- Each turn of a fallible loop. -/
theorem foldlM
    {S : Type} {turn : S → α → Except E S}
    (hTurn : ∀ s a, Raises P (turn s a))
    (items : List α) (s : S) :
    Raises P (items.foldlM turn s) := by
  induction items generalizing s with
  | nil => exact ok s
  | cons a items ih =>
      rw [List.foldlM_cons]
      exact (hTurn s a).bind fun s' _ => ih s'

theorem forM
    {check : α → Except E PUnit}
    (hCheck : ∀ a, Raises P (check a))
    (items : List α) : Raises P (items.forM check) := by
  induction items with
  | nil => exact ok PUnit.unit
  | cons a items ih => exact (hCheck a).bind fun _ _ => ih

end Raises

/- A program over states `S` that may throw an `E`. -/
abbrev Effects (E S α : Type) := ExceptT E (StateM S) α

namespace Effects

variable {E S α β : Type}

/- The result, and the state that is left. -/
def exec (m : Effects E S α) (s : S) : Except E α × S :=
  m.run.run s

@[simp]
theorem exec_pure (a : α) (s : S) :
    exec (pure a : Effects E S α) s = (.ok a, s) := rfl

@[simp]
theorem exec_throw (e : E) (s : S) :
    exec (throw e : Effects E S α) s = (.error e, s) := rfl

@[simp]
theorem exec_get (s : S) :
    exec (get : Effects E S S) s = (.ok s, s) := rfl

@[simp]
theorem exec_set (s t : S) :
    exec (set t : Effects E S PUnit) s = (.ok ⟨⟩, t) := rfl

/- A sequence stops where its first part throws. -/
theorem exec_bind
    (m : Effects E S α) (f : α → Effects E S β) (s : S) :
    exec (m >>= f) s =
      match exec m s with
      | (.ok a, t) => exec (f a) t
      | (.error e, t) => (.error e, t) := by
  unfold exec ExceptT.run StateT.run
  simp only [bind, ExceptT.bind, ExceptT.mk, StateT.bind,
    ExceptT.bindCont]
  cases m s with
  | mk r t =>
      cases r with
      | ok a => rfl
      | error e => rfl

@[simp]
theorem exec_get_bind (f : S → Effects E S β) (s : S) :
    exec (get >>= f) s = exec (f s) s := by
  rw [exec_bind, exec_get]

@[simp]
theorem exec_set_bind
    (t : S) (f : PUnit → Effects E S β) (s : S) :
    exec (set t >>= f) s = exec (f ⟨⟩) t := by
  rw [exec_bind, exec_set]

/- A result, or an error, that is known already. -/
def lift (r : Except E α) : Effects E S α :=
  match r with
  | .ok a => pure a
  | .error e => throw e

@[simp]
theorem exec_lift (r : Except E α) (s : S) :
    exec (lift r : Effects E S α) s = (r, s) := by
  cases r with
  | ok a => rfl
  | error e => rfl

def throwIf (condition : Bool) (e : E) : Effects E S Unit :=
  if condition then throw e else pure ()

------------------------------------------------------------
-- What A Program Keeps
------------------------------------------------------------

/- The states before and after are related, whatever happens. -/
def Keeps (R : S → S → Prop) (m : Effects E S α) : Prop :=
  ∀ s, R s (exec m s).2

namespace Keeps

variable {R R' : S → S → Prop}

theorem mono
    {m : Effects E S α}
    (hKeeps : Keeps R m)
    (hWeaker : ∀ s t, R s t → R' s t) : Keeps R' m :=
  fun s => hWeaker s _ (hKeeps s)

/-
  A program between whose parts two relations hold that
  compose. The first part may also be the last one.
-/
theorem bind
    {R₁ R₂ : S → S → Prop}
    {m : Effects E S α} {f : α → Effects E S β}
    (hFirst : Keeps R₁ m)
    (hNext : ∀ a, Keeps R₂ (f a))
    (hComp : ∀ {s t u}, R₁ s t → R₂ t u → R s u)
    (hStop : ∀ {s t}, R₁ s t → R s t) : Keeps R (m >>= f) := by
  intro s
  have hBefore := hFirst s
  rw [exec_bind]
  cases hExec : exec m s with
  | mk r t =>
      rw [hExec] at hBefore
      cases r with
      | ok a => exact hComp hBefore (hNext a t)
      | error e => exact hStop hBefore

variable [Std.Refl R]

theorem pure (a : α) :
    Keeps R (Pure.pure a : Effects E S α) :=
  fun s => Std.Refl.refl s

theorem throw (e : E) :
    Keeps R (MonadExcept.throw e : Effects E S α) :=
  fun s => Std.Refl.refl s

theorem get : Keeps R (MonadState.get : Effects E S S) :=
  fun s => Std.Refl.refl s

theorem lift (r : Except E α) :
    Keeps R (Effects.lift r : Effects E S α) := by
  intro s
  rw [exec_lift]
  exact Std.Refl.refl s

theorem throwIf (condition : Bool) (e : E) :
    Keeps R (Effects.throwIf condition e : Effects E S Unit) := by
  unfold Effects.throwIf
  split
  · exact throw e
  · exact pure ()

end Keeps

/- The same, for the states before that have a property. -/
def KeepsFrom
    (P : S → Prop) (R : S → S → Prop)
    (m : Effects E S α) : Prop :=
  ∀ s, P s → R s (exec m s).2

namespace KeepsFrom

variable {P : S → Prop} {R : S → S → Prop}

theorem keeps
    {m : Effects E S α}
    (hKeeps : KeepsFrom (fun _ => True) R m) : Keeps R m :=
  fun s => hKeeps s trivial

/- What the first part ensures is there for the second. -/
theorem bind
    {R₁ R₂ : S → S → Prop}
    {m : Effects E S α} {f : α → Effects E S β}
    {Q : α → S → Prop}
    (hFirst : KeepsFrom P R₁ m)
    (hEnsures : ∀ s a t,
      P s → exec m s = (.ok a, t) → Q a t)
    (hNext : ∀ a, KeepsFrom (Q a) R₂ (f a))
    (hComp : ∀ {s t u}, R₁ s t → R₂ t u → R s u)
    (hStop : ∀ {s t}, R₁ s t → R s t) :
    KeepsFrom P R (m >>= f) := by
  intro s hP
  have hBefore := hFirst s hP
  rw [exec_bind]
  cases hExec : exec m s with
  | mk r t =>
      rw [hExec] at hBefore
      cases r with
      | ok a =>
          exact hComp hBefore
            (hNext a t (hEnsures s a t hP hExec))
      | error e => exact hStop hBefore

end KeepsFrom

/- An error that is not thrown in states with a property. -/
def Avoids
    (P : S → Prop) (e : E) (m : Effects E S α) : Prop :=
  ∀ s, P s → (exec m s).1 ≠ .error e

namespace Avoids

variable {P : S → Prop} {e : E}

theorem pure (a : α) :
    Avoids P e (Pure.pure a : Effects E S α) :=
  fun _ _ hError => nomatch hError

theorem lift
    {r : Except E α}
    (hResult : r ≠ .error e) :
    Avoids P e (Effects.lift r : Effects E S α) := by
  intro s hP
  rw [exec_lift]
  exact hResult

/- The second part runs in the states the first part leaves. -/
theorem bind
    {m : Effects E S α} {f : α → Effects E S β}
    {Q : α → S → Prop}
    (hFirst : Avoids P e m)
    (hEnsures : ∀ s a t,
      P s → exec m s = (.ok a, t) → Q a t)
    (hNext : ∀ a, Avoids (Q a) e (f a)) :
    Avoids P e (m >>= f) := by
  intro s hP
  have hBefore := hFirst s hP
  rw [exec_bind]
  cases hExec : exec m s with
  | mk r t =>
      rw [hExec] at hBefore
      cases r with
      | ok a => exact hNext a t (hEnsures s a t hP hExec)
      | error e' =>
          intro hError
          cases hError
          exact hBefore rfl

/- A property that every state keeps is there for both. -/
theorem bind_of_keeps
    {R : S → S → Prop}
    {m : Effects E S α} {f : α → Effects E S β}
    (hFirst : Avoids P e m)
    (hKeeps : Keeps R m)
    (hStable : ∀ s t, R s t → P s → P t)
    (hNext : ∀ a, Avoids P e (f a)) :
    Avoids P e (m >>= f) := by
  refine hFirst.bind ?_ hNext
  intro s a t hP hExec
  have hAfter := hKeeps s
  rw [hExec] at hAfter
  exact hStable s t hAfter hP

end Avoids

end Effects

end Manipulator
