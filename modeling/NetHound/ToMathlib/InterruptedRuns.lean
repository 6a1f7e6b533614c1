import Mathlib.Init
import NetHound.ToMathlib.Interruptible

/-! # Histories of interrupted programs

`Leads` is a Hoare triple with three outcomes: it tells an error from another, and both from a stop. A loop
keeps what each of its rounds keeps, wherever it is interrupted (`leads_forM`). A program on a part of a
store leaves the rest of it alone (`Leads.on`). A history runs programs one after the other, each up to
where it returned, failed or stopped: what every program keeps in every outcome holds of every store a
history leads to (`Reaches.invariant`). A program `Completes` when its calls are all answered.
-/

namespace Interruptible

namespace Program

variable {σ τ ε ε' α β : Type}

/-! ## Laws -/

private theorem bind_apply (x : Program σ ε α) (f : α → Program σ ε β) (session : Session σ) :
    (x >>= f) session = match x session with
      | (.ok value, session) => f value session
      | (.error error, session) => (.error error, session)
      | (.stopped, session) => (.stopped, session) := rfl

theorem bind_of_ok {x : Program σ ε α} {f : α → Program σ ε β} {session session' : Session σ} {value : α}
    (ran : x session = (.ok value, session')) : (x >>= f) session = f value session' := by
  rw [bind_apply, ran]

theorem bind_of_error {x : Program σ ε α} {f : α → Program σ ε β} {session session' : Session σ} {error : ε}
    (ran : x session = (.error error, session')) : (x >>= f) session = (.error error, session') := by
  rw [bind_apply, ran]

theorem bind_of_stopped {x : Program σ ε α} {f : α → Program σ ε β} {session session' : Session σ}
    (ran : x session = (.stopped, session')) : (x >>= f) session = (.stopped, session') := by
  rw [bind_apply, ran]

/-- A program that returned went through its first part. -/
theorem bind_eq_ok_iff {x : Program σ ε α} {f : α → Program σ ε β} {session session' : Session σ}
    {result : β} : (x >>= f) session = (.ok result, session') ↔
      ∃ value middle, x session = (.ok value, middle) ∧ f value middle = (.ok result, session') := by
  rcases ran : x session with ⟨value | error | _, middle⟩
  · rw [bind_of_ok ran]
    constructor
    · exact fun rest => ⟨value, middle, rfl, rest⟩
    · rintro ⟨_, _, same, rest⟩
      cases same
      exact rest
  · rw [bind_of_error ran]
    exact iff_of_false (fun same => nomatch same) fun ⟨_, _, same, _⟩ => nomatch same
  · rw [bind_of_stopped ran]
    exact iff_of_false (fun same => nomatch same) fun ⟨_, _, same, _⟩ => nomatch same

private theorem pure_id_apply (x : Program σ ε α) : (x >>= fun value => pure value) = x := by
  funext session
  rcases ran : x session with ⟨_ | _ | _, session'⟩
  · exact bind_of_ok ran
  · exact bind_of_error ran
  · exact bind_of_stopped ran

private theorem bind_assoc_apply {γ : Type} (x : Program σ ε α) (f : α → Program σ ε β)
    (g : β → Program σ ε γ) : (x >>= f >>= g) = x >>= fun value => f value >>= g := by
  funext session
  rcases ran : x session with ⟨_ | _ | _, session'⟩
  · rw [bind_apply (x >>= f) g, bind_of_ok ran, bind_of_ok ran, bind_apply]
  · rw [bind_of_error (bind_of_error ran), bind_of_error ran]
  · rw [bind_of_stopped (bind_of_stopped ran), bind_of_stopped ran]

instance : LawfulMonad (Program σ ε) :=
  LawfulMonad.mk' _ pure_id_apply (fun _ _ => rfl) bind_assoc_apply

/-- The process stops. -/
def stop : Program σ ε α := fun session => (.stopped, session)

/-! ## Triples with errors -/

/-- What is promised of where a program ends, by how it ends. -/
def EndsAs (post : α → σ → Prop) (raised : ε → σ → Prop) (stopped : σ → Prop) :
    Outcome ε α × Session σ → Prop
  | (.ok value, session) => post value session.store
  | (.error error, session) => raised error session.store
  | (.stopped, session) => stopped session.store

/-- From a store in `pre` a program returns with `post`, fails with `raised` or stops with `stopped`. -/
structure Leads (pre : σ → Prop) (x : Program σ ε α) (post : α → σ → Prop) (raised : ε → σ → Prop)
    (stopped : σ → Prop) : Prop where
  ends : ∀ session : Session σ, pre session.store → EndsAs post raised stopped (x session)

section Leads

variable {pre pre' stopped stopped' : σ → Prop} {post post' : α → σ → Prop} {raised raised' : ε → σ → Prop}
  {x : Program σ ε α}

theorem Ensures.leads {crash : σ → Prop} (ensures : Ensures pre x post crash) :
    Leads pre x post (fun _ => crash) crash := by
  refine ⟨fun session holds => ?_⟩
  have ends := ensures.ends session holds
  rcases ran : x session with ⟨_ | _ | _, session'⟩ <;> rw [ran] at ends <;> exact ends

theorem Leads.ensures {crash : σ → Prop} (leads : Leads pre x post raised stopped)
    (failed : ∀ error store, raised error store → crash store) (halted : ∀ store, stopped store → crash store) :
    Ensures pre x post crash := by
  refine ⟨fun session holds => ?_⟩
  have ends := leads.ends session holds
  rcases ran : x session with ⟨_ | _ | _, session'⟩ <;> rw [ran] at ends
  · exact ends
  · exact failed _ _ ends
  · exact halted _ ends

/-- What holds of every store a program may end in. -/
theorem Leads.always {inv : σ → Prop} (leads : Leads pre x post raised stopped)
    (returned : ∀ value store, post value store → inv store) (failed : ∀ error store, raised error store → inv store)
    (halted : ∀ store, stopped store → inv store) : Ensures pre x (fun _ => inv) inv :=
  (leads.ensures failed halted).imp (fun _ holds => holds) returned fun _ holds => holds

theorem Leads.imp (leads : Leads pre x post raised stopped) (before : ∀ store, pre' store → pre store)
    (after : ∀ value store, post value store → post' value store)
    (failed : ∀ error store, raised error store → raised' error store)
    (halted : ∀ store, stopped store → stopped' store) : Leads pre' x post' raised' stopped' := by
  refine ⟨fun session holds => ?_⟩
  have ends := leads.ends session (before _ holds)
  rcases ran : x session with ⟨_ | _ | _, session'⟩ <;> rw [ran] at ends
  · exact after _ _ ends
  · exact failed _ _ ends
  · exact halted _ ends

/-- Nothing is promised. -/
theorem leads_trivial : Leads pre x (fun _ _ => True) (fun _ _ => True) (fun _ => True) := by
  refine ⟨fun session _ => ?_⟩
  rcases x session with ⟨_ | _ | _, _⟩ <;> trivial

/-- A triple may be proved from each of its stores. -/
theorem leads_of_each (leads : ∀ store, pre store → Leads (· = store) x post raised stopped) :
    Leads pre x post raised stopped :=
  ⟨fun session holds => (leads _ holds).ends session rfl⟩

theorem leads_pure {value : α} (after : ∀ store, pre store → post value store) :
    Leads pre (pure value : Program σ ε α) post raised stopped :=
  ⟨fun _ holds => after _ holds⟩

theorem leads_fail {error : ε} (failed : ∀ store, pre store → raised error store) :
    Leads pre (fail error : Program σ ε α) post raised stopped :=
  ⟨fun _ holds => failed _ holds⟩

theorem leads_stop (halted : ∀ store, pre store → stopped store) :
    Leads pre (stop : Program σ ε α) post raised stopped :=
  ⟨fun _ holds => halted _ holds⟩

theorem ensures_stop {crash : σ → Prop} (interrupted : ∀ store, pre store → crash store) :
    Ensures pre (stop : Program σ ε α) post crash :=
  ⟨fun _ holds => interrupted _ holds⟩

/-- What holds of every store in `pre` may be used. -/
theorem Leads.given {p : Prop} (fact : ∀ store, pre store → p)
    (leads : p → Leads pre x post raised stopped) : Leads pre x post raised stopped :=
  ⟨fun session holds => (leads (fact _ holds)).ends session holds⟩

theorem Leads.bind {f : α → Program σ ε β} {between : α → σ → Prop} {final : β → σ → Prop}
    (first : Leads pre x between raised stopped)
    (rest : ∀ value, Leads (between value) (f value) final raised stopped) :
    Leads pre (x >>= f) final raised stopped := by
  refine ⟨fun session holds => ?_⟩
  have ends := first.ends session holds
  rcases ran : x session with ⟨_ | _ | _, session'⟩ <;> rw [ran] at ends
  · rw [bind_of_ok ran]
    exact (rest _).ends session' ends
  · rw [bind_of_error ran]
    exact ends
  · rw [bind_of_stopped ran]
    exact ends

/-- A failed request and one the process stopped in have left the store alone or taken effect. -/
theorem leads_request {error : ε} {effect : σ → Option (α × σ)}
    (done : ∀ store value store', pre store → effect store = some (value, store') → post value store')
    (failed : ∀ store, pre store → raised error store)
    (failedLate : ∀ store value store', pre store → effect store = some (value, store') → raised error store')
    (halted : ∀ store, pre store → stopped store)
    (haltedLate : ∀ store value store', pre store → effect store = some (value, store') → stopped store') :
    Leads pre (request error effect : Program σ ε α) post raised stopped := by
  have called : Ensures pre (call effect : Program σ ε (Option α))
      (fun result store => result.elim (raised error store) (post · store)) stopped :=
    ensures_call done failed failedLate halted haltedLate
  have leads : Leads pre (call effect : Program σ ε (Option α))
      (fun result store => result.elim (raised error store) (post · store)) raised stopped := by
    refine ⟨fun session holds => ?_⟩
    have ends := called.ends session holds
    rcases ran : (call effect : Program σ ε (Option α)) session with ⟨_ | failure | _, session'⟩
    · rw [ran] at ends
      exact ends
    · obtain ⟨store, _ | ⟨_ | _ | _, replies⟩⟩ := session <;> cases ran
    · rw [ran] at ends
      exact ends
  refine leads.bind fun result => ?_
  cases result with
  | some value => exact leads_pure fun _ holds => holds
  | none => exact leads_fail fun _ holds => holds

/-- Every round takes the invariant of the items before it to that of the items up to it. -/
theorem leads_forM {items : List α} {body : α → Program σ ε PUnit} {inv : List α → σ → Prop}
    (round : ∀ earlier item later, items = earlier ++ item :: later →
      Leads (inv earlier) (body item) (fun _ => inv (earlier ++ [item])) raised stopped) :
    Leads (inv []) (forM items body) (fun _ => inv items) raised stopped := by
  have rest (earlier later : List α) (all : items = earlier ++ later) :
      Leads (inv earlier) (forM later body) (fun _ => inv items) raised stopped := by
    induction later generalizing earlier with
    | nil =>
      rw [List.append_nil] at all
      subst all
      exact leads_pure fun _ holds => holds
    | cons item later ih =>
      rw [List.forM_cons]
      refine (round earlier item later all).bind fun _ => ih (earlier ++ [item]) ?_
      rw [all, List.append_assoc]
      rfl
  exact rest [] items rfl

end Leads

/-! ## Parts of a store -/

/-- A part of a store, and how it is put back. -/
structure Part (τ σ : Type) where
  get : τ → σ
  set : σ → τ → τ
  get_set : ∀ part store, get (set part store) = part
  set_set : ∀ part part' store, set part (set part' store) = set part store
  set_get : ∀ store, set (get store) store = store

/-- The whole store. -/
def Part.whole : Part σ σ := ⟨id, fun part _ => part, fun _ _ => rfl, fun _ _ _ => rfl, fun _ => rfl⟩

/-- A program run on a part of a store. -/
def on (part : Part τ σ) (wrap : ε → ε') (x : Program σ ε α) : Program τ ε' α := fun session =>
  let (outcome, inner) := x ⟨part.get session.store, session.replies⟩
  let session := ⟨part.set inner.store session.store, inner.replies⟩
  match outcome with
  | .ok value => (.ok value, session)
  | .error error => (.error (wrap error), session)
  | .stopped => (.stopped, session)

/-- Run on the whole store, a program does what it does, and its errors are wrapped. -/
theorem on_whole_apply (wrap : ε → ε') (x : Program σ ε α) (session : Session σ) :
    x.on .whole wrap session = ((x session).1.mapError wrap, (x session).2) := by
  rcases ran : x ⟨Part.whole.get session.store, session.replies⟩ with ⟨_ | _ | _, inner⟩ <;>
    · have same : x session = _ := ran
      simp only [Program.on, ran, same]
      rfl

/-- Only the part changes, and it changes as the program changes it. -/
theorem Leads.on {part : Part τ σ} {wrap : ε → ε'} {x : Program σ ε α} {store : τ} {post : α → σ → Prop}
    {raised : ε → σ → Prop} {stopped : σ → Prop} (leads : Leads (· = part.get store) x post raised stopped) :
    Leads (· = store) (x.on part wrap) (fun value after => ∃ inner, after = part.set inner store ∧ post value inner)
      (fun error after => ∃ cause inner, error = wrap cause ∧ after = part.set inner store ∧ raised cause inner)
      (fun after => ∃ inner, after = part.set inner store ∧ stopped inner) := by
  constructor
  rintro ⟨outer, replies⟩ rfl
  have ends := leads.ends ⟨part.get outer, replies⟩ rfl
  rcases ran : x ⟨part.get outer, replies⟩ with ⟨value | error | _, inner⟩
  · rw [ran] at ends
    simp only [Program.on, ran]
    exact ⟨_, rfl, ends⟩
  · rw [ran] at ends
    simp only [Program.on, ran]
    exact ⟨_, _, rfl, rfl, ends⟩
  · rw [ran] at ends
    simp only [Program.on, ran]
    exact ⟨_, rfl, ends⟩

/-- Run on the whole store, a program does what it does, under other errors. -/
theorem Leads.on_whole {x : Program σ ε α} {store : σ} {post : α → σ → Prop} {raised : ε → σ → Prop}
    {stopped : σ → Prop} (leads : Leads (· = store) x post raised stopped) (wrap : ε → ε') :
    Leads (· = store) (x.on .whole wrap) post
      (fun error after => ∃ cause, error = wrap cause ∧ raised cause after) stopped := by
  constructor
  rintro session rfl
  have ends := leads.ends session rfl
  rw [on_whole_apply]
  rcases ran : x session with ⟨_ | error | _, after⟩ <;> rw [ran] at ends
  · exact ends
  · exact ⟨error, rfl, ends⟩
  · exact ends

theorem Ensures.on_whole {pre : σ → Prop} {x : Program σ ε α} {post : α → σ → Prop} {crash : σ → Prop}
    (ensures : Ensures pre x post crash) (wrap : ε → ε') : Ensures pre (x.on .whole wrap) post crash := by
  constructor
  intro session holds
  have ends := ensures.ends session holds
  rw [on_whole_apply]
  rcases ran : x session with ⟨_ | _ | _, after⟩ <;> rw [ran] at ends <;> exact ends

/-! ## Histories -/

/-- The stores a history of permitted programs leads to, each run up to where it ended. -/
inductive Reaches (permitted : Program σ ε α → Prop) (store : σ) : σ → Prop
  | start : Reaches permitted store store
  | run {before : σ} {x : Program σ ε α} (allowed : permitted x) (replies : List Reply)
      (reached : Reaches permitted store before) : Reaches permitted store (x ⟨before, replies⟩).2.store

/-- What a program keeps in every outcome holds where it ends. -/
theorem Ensures.keeps {inv : σ → Prop} {x : Program σ ε α} (ensures : Ensures inv x (fun _ => inv) inv)
    (session : Session σ) (holds : inv session.store) : inv (x session).2.store := by
  have ends := ensures.ends session holds
  rcases ran : x session with ⟨_ | _ | _, session'⟩ <;> rw [ran] at ends <;> exact ends

/-- What every permitted program keeps holds of every store a history leads to. -/
theorem Reaches.invariant {permitted : Program σ ε α → Prop} {store store' : σ} {inv : σ → Prop}
    (reaches : Reaches permitted store store') (holds : inv store)
    (kept : ∀ x, permitted x → Ensures inv x (fun _ => inv) inv) : inv store' := by
  induction reaches with
  | start => exact holds
  | run allowed replies _ ih => exact (kept _ allowed).keeps ⟨_, replies⟩ ih

/-! ## Undisturbed runs -/

/-- With its calls all answered, the program returns `value` and leaves `store'`. -/
def Completes (x : Program σ ε α) (store : σ) (value : α) (store' : σ) : Prop :=
  ∃ calls, ∀ replies, x ⟨store, List.replicate calls .done ++ replies⟩ = (.ok value, ⟨store', replies⟩)

section Completes

variable {store store' store'' : σ} {value : α} {result : β}

theorem completes_pure (value : α) (store : σ) : Completes (pure value : Program σ ε α) store value store :=
  ⟨0, fun _ => rfl⟩

theorem Completes.bind {x : Program σ ε α} {f : α → Program σ ε β} (first : Completes x store value store')
    (rest : Completes (f value) store' result store'') : Completes (x >>= f) store result store'' := by
  obtain ⟨calls, first⟩ := first
  obtain ⟨more, rest⟩ := rest
  refine ⟨calls + more, fun replies => ?_⟩
  rw [← List.replicate_append_replicate, List.append_assoc, bind_of_ok (first _)]
  exact rest replies

theorem completes_request {error : ε} {effect : σ → Option (α × σ)} (applied : effect store = some (value, store')) :
    Completes (request error effect) store value store' := by
  refine ⟨1, fun replies => ?_⟩
  have called : (call effect : Program σ ε (Option α)) ⟨store, List.replicate 1 .done ++ replies⟩ =
      (.ok (some value), ⟨store', replies⟩) := by
    change (Outcome.ok ((effect store).map Prod.fst), Session.mk (effectOn effect true store) replies) = _
    simp only [applied, effectOn, Option.map_some]
  exact bind_of_ok called

theorem completes_forM {items : List α} {body : α → Program σ ε PUnit} {stores : List α → σ}
    (round : ∀ earlier item later, items = earlier ++ item :: later →
      Completes (body item) (stores earlier) ⟨⟩ (stores (earlier ++ [item]))) :
    Completes (forM items body) (stores []) ⟨⟩ (stores items) := by
  have rest (earlier later : List α) (all : items = earlier ++ later) :
      Completes (forM later body) (stores earlier) ⟨⟩ (stores items) := by
    induction later generalizing earlier with
    | nil =>
      rw [List.append_nil] at all
      subst all
      exact completes_pure _ _
    | cons item later ih =>
      rw [List.forM_cons]
      refine (round earlier item later all).bind (ih (earlier ++ [item]) ?_)
      rw [all, List.append_assoc]
      rfl
  exact rest [] items rfl

theorem Completes.on {part : Part τ σ} {wrap : ε → ε'} {x : Program σ ε α} {outer : τ}
    (completes : Completes x (part.get outer) value store') :
    Completes (x.on part wrap) outer value (part.set store' outer) := by
  obtain ⟨calls, completes⟩ := completes
  refine ⟨calls, fun replies => ?_⟩
  simp only [Program.on, completes replies]

theorem Completes.on_whole {x : Program σ ε α} (completes : Completes x store value store') (wrap : ε → ε') :
    Completes (x.on .whole wrap) store value store' := by
  obtain ⟨calls, completes⟩ := completes
  refine ⟨calls, fun replies => ?_⟩
  rw [on_whole_apply, completes replies]
  rfl

end Completes

end Program

end Interruptible
