import Pipework.Proofs.Host.Matching

/-!
# Actions and changes of the state

An action respects a change of the state if it makes no difference whether the state is changed
before the action or after it: the answer is the same, and so is the state in the end. What is made
of actions that respect a change respects it as well, as long as an action that needs something of
an earlier answer gets it.

## Main definitions

* `Gives` — what is answered has a property
* `Respects`, `Action.Respects` — an action respects a change, whatever good state it starts in
* `Shifted` — a good state, and the state after the change

## Main results

* `Respects.bind`, `Action.Respects.bind` — one action after another
* `Respects.modify` — changing the state otherwise
* `Action.Respects.attempt`, `Action.Respects.lift` — actions that may fail and actions that may
  not
* `Respects.matches_self` — states that a change makes the same
* `Respects.shifted`, `Respects.of_shifted` — to respect a change is to match oneself after it
-/

namespace Pipework

variable {σ α β ε δ : Type} {good : σ → Prop} {change : σ → σ} {P : α → Prop} {Q : β → Prop}

/-- What is answered, if anything is, has the property. -/
def Gives {ε α : Type} (P : α → Prop) : Except ε α → Prop
  | .ok a => P a
  | .error _ => True

namespace Gives

variable {r : Except ε α}

theorem mono {P' : α → Prop} (h : Gives P r) (hweaker : ∀ a, P a → P' a) : Gives P' r := by
  cases r with
  | error e => trivial
  | ok a => exact hweaker a h

theorem bind {f : α → Except ε β} (h : ∀ a, Gives Q (f a)) : Gives Q (r >>= f) := by
  cases r with
  | error e => trivial
  | ok a => exact h a

theorem map {f : α → β} (h : ∀ a, Q (f a)) : Gives Q (r.map f) := by
  cases r with
  | error e => trivial
  | ok a => exact h a

theorem mapError {f : ε → δ} (h : Gives P r) : Gives P (r.mapError f) := by
  cases r with
  | error e => trivial
  | ok a => exact h

theorem of_forall (h : ∀ a, P a) (r : Except ε α) : Gives P r := by
  cases r with
  | error e => trivial
  | ok a => exact h a

end Gives

/-- From a good state, the action comes to a good one and answers what has the property, and it
makes no difference whether the state is changed before it or after it. -/
structure Respects (good : σ → Prop) (change : σ → σ) (P : α → Prop) (a : StateM σ α) : Prop where
  keeps : ∀ s, good s → good (a.run s).2
  answer : ∀ s, good s → P (a.run s).1
  run : ∀ s, good s → a.run (change s) = ((a.run s).1, change (a.run s).2)

/-- An action that may fail respects the change, whether it fails or not. -/
def Action.Respects (good : σ → Prop) (change : σ → σ) (P : α → Prop) (a : Action σ ε α) : Prop :=
  Pipework.Respects good change (Gives P) a.run

namespace Respects

theorem pure {x : α} (hholds : P x) : Respects good change P (pure x) :=
  ⟨fun _ hfine => hfine, fun _ _ => hholds, fun _ _ => rfl⟩

theorem bind {a : StateM σ α} {f : α → StateM σ β} (hfirst : Respects good change P a)
    (hnext : ∀ x, P x → Respects good change Q (f x)) : Respects good change Q (a >>= f) := by
  have hlater (s : σ) (hfine : good s) := hnext _ (hfirst.answer s hfine)
  refine ⟨fun s hfine => ?_, fun s hfine => ?_, fun s hfine => ?_⟩
  · exact (hlater s hfine).keeps _ (hfirst.keeps s hfine)
  · exact (hlater s hfine).answer _ (hfirst.keeps s hfine)
  · rw [StateT.run_bind, hfirst.run s hfine]
    exact (hlater s hfine).run _ (hfirst.keeps s hfine)

theorem mono {P' : α → Prop} {a : StateM σ α} (hrespects : Respects good change P a)
    (hweaker : ∀ x, P x → P' x) : Respects good change P' a :=
  ⟨hrespects.keeps, fun s hfine => hweaker _ (hrespects.answer s hfine), hrespects.run⟩

/-- It is enough to look at the run from each good state. -/
theorem of_run {a : StateM σ α}
    (heach : ∀ s, good s → ∃ x t, a.run s = (x, t) ∧ good t ∧ P x ∧
      a.run (change s) = (x, change t)) :
    Respects good change P a := by
  refine ⟨fun s hfine => ?_, fun s hfine => ?_, fun s hfine => ?_⟩
  all_goals
    obtain ⟨x, t, hrun, hkeeps, hanswer, hchanged⟩ := heach s hfine
    rw [hrun]
  · exact hkeeps
  · exact hanswer
  · exact hchanged

/-- Another change of the state, if the two get along. -/
theorem modify {f : σ → σ} (hkeeps : ∀ s, good s → good (f s))
    (hcommutes : ∀ s, good s → f (change s) = change (f s)) :
    Respects good change (fun _ => True) (modify f : StateM σ PUnit) :=
  ⟨hkeeps, fun _ _ => trivial, fun s hfine => congrArg (Prod.mk _) (hcommutes s hfine)⟩

end Respects

namespace Action.Respects

/-- It is enough to look at the outcome from each good state. -/
theorem of_outcome {a : Action σ ε α}
    (heach : ∀ s, good s → ∃ r t, a.outcome s = (r, t) ∧ good t ∧ Gives P r ∧
      a.outcome (change s) = (r, change t)) :
    Respects good change P a :=
  .of_run heach

theorem pure {x : α} (hholds : P x) : Respects good change P (pure x : Action σ ε α) :=
  ⟨fun _ hfine => hfine, fun _ _ => hholds, fun _ _ => rfl⟩

theorem throw (e : ε) : Respects good change P (throw e : Action σ ε α) :=
  ⟨fun _ hfine => hfine, fun _ _ => trivial, fun _ _ => rfl⟩

/-- What has nothing to do with the state. -/
theorem const {r : Except ε α} (hgiven : Gives P r) :
    Respects good change P (ofFun fun s => (r, s)) :=
  ⟨fun _ hfine => hfine, fun _ _ => hgiven, fun _ _ => rfl⟩

theorem bind {a : Action σ ε α} {f : α → Action σ ε β} (hfirst : Respects good change P a)
    (hnext : ∀ x, P x → Respects good change Q (f x)) : Respects good change Q (a >>= f) := by
  have hboth : Pipework.Respects good change (Gives Q) (a.run >>= ExceptT.bindCont f) := by
    refine Pipework.Respects.bind hfirst fun r hgiven => ?_
    cases r with
    | ok x => exact hnext x hgiven
    | error e => exact throw e
  exact hboth

/-- What depends on the state, if only on something that the change leaves alone. -/
theorem get_bind {f : σ → Action σ ε α} (heach : ∀ s, good s → Respects good change P (f s))
    (hblind : ∀ s, good s → f (change s) = f s) : Respects good change P (get >>= f) := by
  refine ⟨fun s hfine => (heach s hfine).keeps s hfine,
    fun s hfine => (heach s hfine).answer s hfine, fun s hfine => ?_⟩
  change (f (change s)).run (change s) = _
  rw [hblind s hfine]
  exact (heach s hfine).run s hfine

theorem lift {a : StateM σ α} (hrespects : Pipework.Respects good change P a) :
    Respects good change P (liftM a : Action σ ε α) :=
  ⟨hrespects.keeps, hrespects.answer, fun s hfine => by
    change (Except.ok (a.run (change s)).1, (a.run (change s)).2) = _
    rw [hrespects.run s hfine]
    rfl⟩

/-- An action that goes on after its failure respects what it respects otherwise. -/
theorem attempt {a : Action σ ε α} (hrespects : Respects good change P a) :
    Respects good change (Gives P) (a.attempt : Action σ δ (Except ε α)) :=
  lift (a := a.run) hrespects

theorem mapFailure {a : Action σ ε α} (hrespects : Respects good change P a) (f : ε → δ) :
    Respects good change P (a.mapFailure f) := by
  refine ⟨hrespects.keeps, fun s hfine => (hrespects.answer s hfine).mapError, fun s hfine => ?_⟩
  have hsame : a.outcome (change s) = _ := hrespects.run s hfine
  change (a.mapFailure f).outcome (change s) = _
  rw [outcome_mapFailure, hsame]
  rfl

end Action.Respects

/-! ### Side by side with a changed state -/

/-- A good state, and the state after the change. -/
def Shifted (good : σ → Prop) (change : σ → σ) (s s' : σ) : Prop := good s ∧ s' = change s

/-- An action that respects a change does the same before and after it. -/
theorem Respects.shifted {a : StateM σ α} (h : Respects good change P a) :
    Matches (Shifted good change) (fun x x' => x = x' ∧ P x) a a := by
  rintro s s' ⟨hfine, rfl⟩
  rw [h.run s hfine]
  exact ⟨⟨rfl, h.answer s hfine⟩, h.keeps s hfine, rfl⟩

theorem Respects.of_shifted {S : α → α → Prop} {a : StateM σ α}
    (h : Matches (Shifted good change) S a a) (hsame : ∀ x x', S x x' → x = x' ∧ P x) :
    Respects good change P a := by
  refine .of_run fun s hfine => ?_
  obtain ⟨hanswers, hkeeps, hchanged⟩ := h s _ ⟨hfine, rfl⟩
  obtain ⟨heq, hholds⟩ := hsame _ _ hanswers
  exact ⟨_, _, rfl, hkeeps, hholds, Prod.ext heq.symm hchanged⟩

/-- An action that respects a change does the same to states that the change makes the same. -/
theorem Respects.matches_self {a : StateM σ α} (h : Respects (fun _ => True) change P a) :
    Matches (fun s s' => change s = change s') Eq a a := by
  intro s s' hsame
  have hrun := h.run s trivial
  rw [hsame, h.run s' trivial] at hrun
  exact ⟨(congrArg Prod.fst hrun).symm, (congrArg Prod.snd hrun).symm⟩

namespace Action.Respects

theorem matches_self {a : Action σ ε α} (h : Respects (fun _ => True) change P a) :
    Matches (fun s s' => change s = change s') Eq a a :=
  (Pipework.Respects.matches_self h).mono fun _ _ => .of_eq

theorem shifted {a : Action σ ε α} (h : Respects good change P a) :
    Matches (Shifted good change) (fun x x' => x = x' ∧ P x) a a := by
  refine (Pipework.Respects.shifted h).mono fun r r' hgiven => ?_
  obtain ⟨rfl, hholds⟩ := hgiven
  cases r with
  | ok x => exact .ok ⟨rfl, hholds⟩
  | error e => exact .error e

/-- An action that answers anything, and respects a change, has the same answers after it. -/
theorem shifted_eq {a : Action σ ε α} (h : Respects good change P a) :
    Matches (Shifted good change) Eq a a :=
  h.shifted.mono fun _ _ hgiven => hgiven.1

theorem of_shifted {S : α → α → Prop} {a : Action σ ε α}
    (h : Matches (Shifted good change) S a a) (hsame : ∀ x x', S x x' → x = x' ∧ P x) :
    Respects good change P a := by
  refine Pipework.Respects.of_shifted h fun r r' halike => ?_
  cases halike with
  | ok hvalues =>
    obtain ⟨rfl, hholds⟩ := hsame _ _ hvalues
    exact ⟨rfl, hholds⟩
  | error e => exact ⟨rfl, trivial⟩

end Action.Respects

end Pipework
