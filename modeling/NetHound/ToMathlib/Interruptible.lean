import Mathlib.Init

/-! # Programs that may be interrupted

A program calls a store, and the environment answers each call: it is done, it fails, or the process
stops there. A call that is not done may have taken effect all the same, and where the answers run out
the process has stopped. `Ensures` is a Hoare triple with two outcomes: `post` of a program that returns
a value, and `crash` of one that returns an error or stops, wherever that happens.
-/

namespace Interruptible

/-- What comes of one call. -/
inductive Reply where
  | done
  | fails (effective : Bool)
  | stops (effective : Bool)
deriving DecidableEq, Repr

inductive Outcome (ε α : Type) where
  | ok (value : α)
  | error (error : ε)
  | stopped
deriving DecidableEq, Repr

def Outcome.mapError {ε ε' α : Type} (wrap : ε → ε') : Outcome ε α → Outcome ε' α
  | .ok value => .ok value
  | .error cause => .error (wrap cause)
  | .stopped => .stopped

/-- A store with the answers that are still to come. -/
structure Session (σ : Type) where
  store : σ
  replies : List Reply

def Program (σ ε α : Type) : Type := Session σ → Outcome ε α × Session σ

namespace Program

variable {σ ε α β : Type}

def fail (error : ε) : Program σ ε α := fun session => (.error error, session)

instance : Monad (Program σ ε) where
  pure value := fun session => (.ok value, session)
  bind x f := fun session =>
    match x session with
    | (.ok value, session) => f value session
    | (.error error, session) => (.error error, session)
    | (.stopped, session) => (.stopped, session)

/-- The store a call leaves when it takes effect. -/
def effectOn (effect : σ → Option (α × σ)) (effective : Bool) (store : σ) : σ :=
  match effective, effect store with
  | true, some (_, store') => store'
  | _, _ => store

/-- One call; the store may refuse it, and a call that failed has no result. -/
def call (effect : σ → Option (α × σ)) : Program σ ε (Option α) := fun session =>
  match session.replies with
  | [] => (.stopped, session)
  | .done :: replies =>
      (.ok ((effect session.store).map Prod.fst), ⟨effectOn effect true session.store, replies⟩)
  | .fails effective :: replies => (.ok none, ⟨effectOn effect effective session.store, replies⟩)
  | .stops effective :: _ => (.stopped, ⟨effectOn effect effective session.store, []⟩)

/-- A call whose failure ends the program with an error. -/
def request (error : ε) (effect : σ → Option (α × σ)) : Program σ ε α := do
  match ← call effect with
  | some value => pure value
  | none => fail error

/-- What is promised of where a program ends. -/
def Ends (post : α → σ → Prop) (crash : σ → Prop) : Outcome ε α × Session σ → Prop
  | (.ok value, session) => post value session.store
  | (.error _, session) => crash session.store
  | (.stopped, session) => crash session.store

/-- From a store in `pre` a program returns with `post` or is interrupted with `crash`. -/
structure Ensures (pre : σ → Prop) (x : Program σ ε α) (post : α → σ → Prop) (crash : σ → Prop) : Prop where
  ends : ∀ session : Session σ, pre session.store → Ends post crash (x session)

variable {pre pre' : σ → Prop} {post post' : α → σ → Prop} {crash crash' : σ → Prop}

theorem Ensures.imp {x : Program σ ε α} (ensures : Ensures pre x post crash)
    (before : ∀ store, pre' store → pre store) (after : ∀ value store, post value store → post' value store)
    (interrupted : ∀ store, crash store → crash' store) : Ensures pre' x post' crash' := by
  refine ⟨fun session holds => ?_⟩
  have ends := ensures.ends session (before _ holds)
  rcases ran : x session with ⟨_ | _ | _, session'⟩
  · rw [ran] at ends
    exact after _ _ ends
  · rw [ran] at ends
    exact interrupted _ ends
  · rw [ran] at ends
    exact interrupted _ ends

/-- A fact that holds of every store in `pre` may be used. -/
theorem Ensures.given {p : Prop} {x : Program σ ε α} (fact : ∀ store, pre store → p)
    (ensures : p → Ensures pre x post crash) : Ensures pre x post crash :=
  ⟨fun session holds => (ensures (fact _ holds)).ends session holds⟩

theorem Ensures.mono_pre {x : Program σ ε α} (ensures : Ensures pre x post crash)
    (before : ∀ store, pre' store → pre store) : Ensures pre' x post crash :=
  ⟨fun session holds => ensures.ends session (before _ holds)⟩

theorem Ensures.mono_crash {x : Program σ ε α} (ensures : Ensures pre x post crash)
    (interrupted : ∀ store, crash store → crash' store) : Ensures pre x post crash' :=
  ensures.imp (fun _ holds => holds) (fun _ _ holds => holds) interrupted

theorem ensures_pure {value : α} (after : ∀ store, pre store → post value store) :
    Ensures pre (pure value : Program σ ε α) post crash :=
  ⟨fun _ holds => after _ holds⟩

theorem ensures_fail {error : ε} (interrupted : ∀ store, pre store → crash store) :
    Ensures pre (fail error : Program σ ε α) post crash :=
  ⟨fun _ holds => interrupted _ holds⟩

theorem Ensures.bind {x : Program σ ε α} {f : α → Program σ ε β} {between : α → σ → Prop}
    {final : β → σ → Prop} (first : Ensures pre x between crash)
    (rest : ∀ value, Ensures (between value) (f value) final crash) :
    Ensures pre (x >>= f) final crash := by
  refine ⟨fun session holds => ?_⟩
  have ends := first.ends session holds
  change Ends final crash (match x session with
    | (.ok value, session) => f value session
    | (.error error, session) => (.error error, session)
    | (.stopped, session) => (.stopped, session))
  revert ends
  rcases x session with ⟨_ | _ | _, session'⟩ <;> intro ends
  · exact (rest _).ends session' ends
  · exact ends
  · exact ends

/-- A call returns what its effect gives, or nothing; an interrupted one has taken effect or not. -/
theorem ensures_call {effect : σ → Option (α × σ)} {result : Option α → σ → Prop}
    (done : ∀ store value store', pre store → effect store = some (value, store') → result (some value) store')
    (refused : ∀ store, pre store → result none store)
    (late : ∀ store value store', pre store → effect store = some (value, store') → result none store')
    (stopped : ∀ store, pre store → crash store)
    (stoppedLate : ∀ store value store', pre store → effect store = some (value, store') → crash store') :
    Ensures pre (call effect : Program σ ε (Option α)) result crash := by
  constructor
  rintro ⟨store, _ | ⟨reply, replies⟩⟩ holds
  · exact stopped _ holds
  · rcases applied : effect store with _ | ⟨value, store'⟩
    · have unchanged (effective : Bool) : effectOn effect effective store = store := by
        cases effective <;> simp only [effectOn, applied]
      cases reply with
      | done =>
        change result ((effect store).map Prod.fst) (effectOn effect true store)
        rw [applied, unchanged]
        exact refused _ holds
      | fails effective =>
        change result none (effectOn effect effective store)
        rw [unchanged]
        exact refused _ holds
      | stops effective =>
        change crash (effectOn effect effective store)
        rw [unchanged]
        exact stopped _ holds
    · have changed : effectOn effect true store = store' := by simp only [effectOn, applied]
      have unchanged : effectOn effect false store = store := by simp only [effectOn]
      cases reply with
      | done =>
        change result ((effect store).map Prod.fst) (effectOn effect true store)
        rw [applied, changed]
        exact done _ _ _ holds applied
      | fails effective =>
        change result none (effectOn effect effective store)
        cases effective with
        | true => exact changed ▸ late _ _ _ holds applied
        | false => exact unchanged ▸ refused _ holds
      | stops effective =>
        change crash (effectOn effect effective store)
        cases effective with
        | true => exact changed ▸ stoppedLate _ _ _ holds applied
        | false => exact unchanged ▸ stopped _ holds

/-- A request leaves the store as it was or takes effect, whether or not it returns. -/
theorem ensures_request {error : ε} {effect : σ → Option (α × σ)}
    (done : ∀ store value store', pre store → effect store = some (value, store') → post value store')
    (kept : ∀ store, pre store → crash store)
    (late : ∀ store value store', pre store → effect store = some (value, store') → crash store') :
    Ensures pre (request error effect : Program σ ε α) post crash := by
  have called : Ensures pre (call effect : Program σ ε (Option α))
      (fun result store => result.elim (crash store) (post · store)) crash :=
    ensures_call done kept late kept late
  refine called.bind fun result => ?_
  cases result with
  | some value => exact ensures_pure fun _ holds => holds
  | none => exact ensures_fail fun _ holds => holds

/-- A call that changes nothing. -/
theorem ensures_call_of_quiet {effect : σ → Option (α × σ)} {store₀ : σ}
    (quiet : ∀ store value store', effect store = some (value, store') → store' = store) :
    Ensures (· = store₀) (call effect : Program σ ε (Option α))
      (fun result store => store = store₀ ∧ ∀ value, result = some value →
        effect store₀ = some (value, store₀)) (· = store₀) := by
  refine ensures_call ?_ ?_ ?_ (fun store same => same) ?_
  · rintro _ value store' rfl applied
    have same := quiet _ _ _ applied
    refine ⟨same, fun value' found => ?_⟩
    cases found
    rw [applied, same]
  · exact fun _ same => ⟨same, fun _ found => nomatch found⟩
  · exact fun _ _ _ same applied => ⟨(quiet _ _ _ applied).trans same, fun _ found => nomatch found⟩
  · exact fun _ _ _ same applied => (quiet _ _ _ applied).trans same

theorem ensures_request_of_quiet {error : ε} {effect : σ → Option (α × σ)} {store₀ : σ}
    (quiet : ∀ store value store', effect store = some (value, store') → store' = store) :
    Ensures (· = store₀) (request error effect : Program σ ε α)
      (fun value store => store = store₀ ∧ effect store₀ = some (value, store₀)) (· = store₀) := by
  refine Ensures.bind (ensures_call_of_quiet quiet) fun result => ?_
  cases result with
  | some value => exact ensures_pure fun _ holds => ⟨holds.1, holds.2 value rfl⟩
  | none => exact ensures_fail fun _ holds => holds.1

end Program

end Interruptible
