import Mathlib.Data.List.Forall2
import Pipework.Host.World

/-!
# Actions side by side

Two actions match if they do the same to states that correspond to one another: what they answer
corresponds, and so do the states that they leave. What is made of matching actions in the same way
matches, as long as what depends on an earlier answer makes no difference between answers that
correspond.

## Main definitions

* `Alike` — the same error, or values that correspond
* `Matches`, `Action.Matches` — two actions that correspond, of which those of the second kind may
  fail

## Main results

* `Matches.bind`, `Action.Matches.bind` — one action after another
* `Action.Matches.get_bind`, `Matches.modify` — looking at the states, and changing them
* `Action.Matches.attempt`, `Action.Matches.lift` — actions that may fail and actions that may not
* `rel_getElem?`, `rel_find?`, `rel_getLast?`, `forall₂_modify` — lists that correspond
-/

namespace Pipework

variable {σ α α' β β' ε δ : Type} {R : σ → σ → Prop} {S S' : α → α' → Prop} {T : β → β' → Prop}

/-- Two outcomes are the same error, or values that correspond. -/
inductive Alike (S : α → α' → Prop) : Except ε α → Except ε α' → Prop where
  | ok {a : α} {a' : α'} (hvalues : S a a') : Alike S (.ok a) (.ok a')
  | error (e : ε) : Alike S (.error e) (.error e)

namespace Alike

variable {r : Except ε α} {r' : Except ε α'}

theorem mono (h : Alike S r r') (hweaker : ∀ a a', S a a' → S' a a') : Alike S' r r' := by
  cases h with
  | ok hvalues => exact .ok (hweaker _ _ hvalues)
  | error e => exact .error e

theorem mapError (h : Alike S r r') (f : ε → δ) : Alike S (r.mapError f) (r'.mapError f) := by
  cases h with
  | ok hvalues => exact .ok hvalues
  | error e => exact .error (f e)

/-- Outcomes that are alike up to the equality of values are the same. -/
theorem eq {r r' : Except ε α} (h : Alike Eq r r') : r = r' := by
  cases h with
  | ok hvalues => rw [hvalues]
  | error e => rfl

theorem of_eq {r r' : Except ε α} (h : r = r') : Alike Eq r r' := by
  subst h
  cases r with
  | ok a => exact .ok rfl
  | error e => exact .error e

/-- Of two outcomes that are alike, either both are errors or both are values. -/
theorem exists_ok {a : α} (h : Alike S (.ok a : Except ε α) r') : ∃ a', r' = .ok a' ∧ S a a' := by
  cases h with
  | ok hvalues => exact ⟨_, rfl, hvalues⟩

theorem eq_error {e : ε} (h : Alike S (.error e : Except ε α) r') : r' = .error e := by
  cases h
  rfl

end Alike

/-- From states that correspond, the actions come to states that correspond, and their answers
correspond too. -/
def Matches (R : σ → σ → Prop) (S : α → α' → Prop) (a : StateM σ α) (a' : StateM σ α') : Prop :=
  ∀ s s', R s s' → S (a.run s).1 (a'.run s').1 ∧ R (a.run s).2 (a'.run s').2

/-- Actions that may fail match if they fail together, and for the same reason. -/
def Action.Matches (R : σ → σ → Prop) (S : α → α' → Prop) (a : Action σ ε α)
    (a' : Action σ ε α') : Prop :=
  Pipework.Matches R (Alike S) a.run a'.run

namespace Matches

variable {a : StateM σ α} {a' : StateM σ α'}

theorem pure {x : α} {x' : α'} (hvalues : S x x') : Matches R S (pure x) (pure x') :=
  fun _ _ hstates => ⟨hvalues, hstates⟩

theorem bind {f : α → StateM σ β} {f' : α' → StateM σ β'} (hfirst : Matches R S a a')
    (hnext : ∀ x x', S x x' → Matches R T (f x) (f' x')) : Matches R T (a >>= f) (a' >>= f') := by
  intro s s' hstates
  obtain ⟨hvalues, hlater⟩ := hfirst s s' hstates
  exact hnext _ _ hvalues _ _ hlater

/-- One action after another, if the answers of the first are the same. -/
theorem bind_same {a a' : StateM σ α} {f : α → StateM σ β} {f' : α → StateM σ β'}
    (hfirst : Matches R Eq a a') (hnext : ∀ x, Matches R T (f x) (f' x)) :
    Matches R T (a >>= f) (a' >>= f') := by
  apply hfirst.bind
  intro x x' hsame
  rw [← hsame]
  exact hnext x

theorem mono (h : Matches R S a a') (hweaker : ∀ x x', S x x' → S' x x') : Matches R S' a a' := by
  intro s s' hstates
  obtain ⟨hvalues, hlater⟩ := h s s' hstates
  exact ⟨hweaker _ _ hvalues, hlater⟩

/-- Changes of the states, if they keep them corresponding. -/
theorem modify {f f' : σ → σ} (hkeeps : ∀ s s', R s s' → R (f s) (f' s')) :
    Matches R Eq (modify f : StateM σ PUnit) (modify f') :=
  fun s s' hstates => ⟨rfl, hkeeps s s' hstates⟩

end Matches

namespace Action.Matches

variable {a : Action σ ε α} {a' : Action σ ε α'}

/-- It is enough to look at the outcomes from each two states that correspond. -/
theorem of_outcome (heach : ∀ s s', R s s' → ∃ r t r' t', a.outcome s = (r, t) ∧
      a'.outcome s' = (r', t') ∧ Alike S r r' ∧ R t t') : Matches R S a a' := by
  intro s s' hstates
  obtain ⟨r, t, r', t', hrun, hrun', hvalues, hlater⟩ := heach s s' hstates
  change Alike S (a.outcome s).1 (a'.outcome s').1 ∧ R (a.outcome s).2 (a'.outcome s').2
  rw [hrun, hrun']
  exact ⟨hvalues, hlater⟩

theorem pure {x : α} {x' : α'} (hvalues : S x x') :
    Matches R S (pure x : Action σ ε α) (pure x') :=
  fun _ _ hstates => ⟨.ok hvalues, hstates⟩

theorem throw (e : ε) : Matches R S (throw e : Action σ ε α) (throw e) :=
  fun _ _ hstates => ⟨.error e, hstates⟩

theorem bind {f : α → Action σ ε β} {f' : α' → Action σ ε β'} (hfirst : Matches R S a a')
    (hnext : ∀ x x', S x x' → Matches R T (f x) (f' x')) : Matches R T (a >>= f) (a' >>= f') := by
  have hboth : Pipework.Matches R (Alike T) (a.run >>= ExceptT.bindCont f)
      (a'.run >>= ExceptT.bindCont f') := by
    apply Pipework.Matches.bind hfirst
    intro r r' halike
    cases halike with
    | ok hvalues => exact hnext _ _ hvalues
    | error e => exact throw e
  exact hboth

/-- One action after another, if the answers of the first are the same. -/
theorem bind_same {a' : Action σ ε α} {f : α → Action σ ε β} {f' : α → Action σ ε β'}
    (hfirst : Matches R Eq a a') (hnext : ∀ x, Matches R T (f x) (f' x)) :
    Matches R T (a >>= f) (a' >>= f') := by
  apply hfirst.bind
  intro x x' hsame
  rw [← hsame]
  exact hnext x

/-- What depends on states that correspond. -/
theorem get_bind {f : σ → Action σ ε α} {f' : σ → Action σ ε α'}
    (hnext : ∀ s s', R s s' → Matches R S (f s) (f' s')) :
    Matches R S (get >>= f) (get >>= f') :=
  fun s s' hstates => hnext s s' hstates s s' hstates

theorem lift {a : StateM σ α} {a' : StateM σ α'} (h : Pipework.Matches R S a a') :
    Matches R S (liftM a : Action σ ε α) (liftM a') :=
  fun s s' hstates => ⟨.ok (h s s' hstates).1, (h s s' hstates).2⟩

/-- Actions with the same answers have the same outcomes, their failures included. -/
theorem run {a' : Action σ ε α} (h : Matches R Eq a a') : Pipework.Matches R Eq a.run a'.run :=
  Pipework.Matches.mono h fun _ _ halike => halike.eq

/-- Actions that go on after their failures match if they do otherwise. -/
theorem attempt {a' : Action σ ε α} (h : Matches R Eq a a') :
    Matches R Eq (a.attempt : Action σ δ (Except ε α)) a'.attempt :=
  lift h.run

theorem mapFailure (h : Matches R S a a') (f : ε → δ) :
    Matches R S (a.mapFailure f) (a'.mapFailure f) :=
  fun s s' hstates => ⟨(h s s' hstates).1.mapError f, (h s s' hstates).2⟩

theorem mono (h : Matches R S a a') (hweaker : ∀ x x', S x x' → S' x x') : Matches R S' a a' :=
  Pipework.Matches.mono h fun _ _ halike => halike.mono hweaker

end Action.Matches

/-! ### Lists that correspond -/

section Lists

variable {P : α → α → Prop} {l l' : List α}

theorem rel_getElem? (hpairs : List.Forall₂ P l l') (i : Nat) : Option.Rel P l[i]? l'[i]? := by
  induction hpairs generalizing i with
  | nil => exact .none
  | cons hpair _ ih =>
    cases i with
    | zero => exact .some hpair
    | succ i => exact ih i

theorem forall₂_modify (hpairs : List.Forall₂ P l l') (i : Nat) {f f' : α → α}
    (hkeeps : ∀ a a', P a a' → P (f a) (f' a')) :
    List.Forall₂ P (l.modify i f) (l'.modify i f') := by
  induction hpairs generalizing i with
  | nil =>
    rw [List.modify_nil, List.modify_nil]
    exact .nil
  | cons hpair hpairs ih =>
    cases i with
    | zero => exact .cons (hkeeps _ _ hpair) hpairs
    | succ i => exact .cons hpair (ih i)

theorem rel_find? (hpairs : List.Forall₂ P l l') (q q' : α → Bool)
    (hsame : ∀ a a', P a a' → q a = q' a') : Option.Rel P (l.find? q) (l'.find? q') := by
  induction hpairs with
  | nil => exact .none
  | cons hpair _ ih =>
    rw [List.find?_cons, List.find?_cons, hsame _ _ hpair]
    split
    · exact .some hpair
    · exact ih

theorem rel_getLast? (hpairs : List.Forall₂ P l l') : Option.Rel P l.getLast? l'.getLast? := by
  have hreversed := List.forall₂_reverse_iff.2 hpairs
  rw [List.getLast?_eq_head?_reverse, List.getLast?_eq_head?_reverse]
  generalize l.reverse = last at hreversed
  generalize l'.reverse = last' at hreversed
  cases hreversed with
  | nil => exact .none
  | cons hpair _ => exact .some hpair

end Lists

end Pipework
