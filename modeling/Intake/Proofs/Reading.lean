import Intake.Proofs.Surroundings
import Intake.Subscriber
/-!
# Reading — invocations that only look at the store

What such an invocation gives is a function of the store (`Store.gives`), as long as nobody changes the store meanwhile
and no call fails; a call that fails makes it fail (`Invocation.Reads`).  The engine plans the jobs of a marker in this
way.  Waiting for a job and judging it change nothing either (`CloudCall.IsPassive`).
-/
namespace Intake

def CloudCall.IsReading : CloudCall → Prop
  | .get _ | .head _ | .list _ _ => True
  | _ => False

/-- The call changes nothing in the store or in the warehouse, and draws no id. -/
def CloudCall.IsPassive : CloudCall → Prop
  | .put .. | .delete .. | .submit _ | .freshId => False
  | _ => True

/-- The call waits, looks at the clock, asks about jobs or counts something. -/
def CloudCall.IsWaiting : CloudCall → Prop
  | .sleep _ | .now | .job _ | .children _ | .count _ => True
  | _ => False

theorem CloudCall.IsWaiting.isPassive {c : CloudCall} (h : c.IsWaiting) : c.IsPassive := by
  cases c <;> trivial

theorem CloudCall.IsReading.isPassive {c : CloudCall} (h : c.IsReading) : c.IsPassive := by
  cases c <;> trivial

/-- The call failed, for another reason than that nothing is there. -/
def CloudCall.Failed : (c : CloudCall) → c.Reply → Prop
  | .get _, r => ∃ fault, r = .error fault ∧ fault.isNotFound = false
  | .head _, r => ∃ fault, r = .error fault ∧ fault.isNotFound = false
  | .put .., r => ∃ fault, r = .error fault ∧ fault.isNotFound = false
  | .delete .., r => ∃ fault, r = .error fault ∧ fault.isNotFound = false
  | .list .., r => ∃ fault, r = .error fault ∧ fault.isNotFound = false
  | _, _ => False

namespace Store

/-- What the store replies to a call that looks at it. -/
def reply? (store : Store) : (c : CloudCall) → Option c.Reply
  | .get key => some (match store.get? key with
      | some object => .ok object.body
      | none => .error (.objectNotFound key))
  | .head key => some (.ok (store.head? key))
  | .list start delimiter => some (.ok (store.list start delimiter))
  | _ => none

theorem get?_of_reply? {store : Store} {key : String} {body : Octets} (h : store.reply? (.get key) = some (.ok body)) :
    ∃ object, store.get? key = some object ∧ object.body = body := by
  simp only [reply?] at h
  cases hobject : store.get? key with
  | none => rw [hobject] at h; cases h
  | some object =>
    rw [hobject] at h
    exact ⟨object, rfl, Except.ok.inj (Option.some.inj h)⟩

/-- The result of a program whose calls all look at the store. -/
def readOff {α : Type} (store : Store) : CloudProgram α → Option α
  | Program.done a => some a
  | Program.ask c next => (store.reply? c).bind fun reply => readOff store (next reply)
  | Program.halt _ => none

/-- **What an invocation gives** that only looks at the store; nothing, if it fails. -/
def gives {α : Type} (store : Store) (x : Invocation α) : Option α :=
  match store.readOff x.run with
  | some (.ok a) => some a
  | _ => none

variable {α β : Type} (store : Store)

theorem readOff_bind (p : CloudProgram α) (f : α → CloudProgram β) :
    store.readOff (p.bind f) = (store.readOff p).bind fun a => store.readOff (f a) := by
  induction p with
  | done a => rfl
  | ask c next ih =>
    simp only [Program.bind, readOff]
    cases store.reply? c with
    | none => rfl
    | some reply => exact ih reply
  | halt => rfl

@[simp]
theorem gives_pure (a : α) : store.gives (pure a) = some a := rfl

@[simp]
theorem gives_throw (e : Failure) : store.gives (throw e : Invocation α) = none := rfl

@[simp]
theorem gives_ofExcept (r : Except Failure α) : store.gives (.ofExcept r) = r.toOption := by
  cases r <;> rfl

@[simp]
theorem gives_bind (x : Invocation α) (f : α → Invocation β) :
    store.gives (x >>= f) = (store.gives x).bind fun a => store.gives (f a) := by
  have h : store.readOff (x >>= f).run = (store.readOff x.run).bind fun r => store.readOff (ExceptT.bindCont f r) :=
    readOff_bind store x.run _
  unfold gives
  rw [h]
  rcases store.readOff x.run with _ | e | a <;> rfl

@[simp]
theorem gives_get (key : String) : store.gives (.get key) = (store.get? key).map (·.body) := by
  simp only [gives, Invocation.get, Invocation.store, ExceptT.run_mk, Program.bind_eq, readOff_bind]
  simp only [CloudProgram.ask, Program.call, readOff, reply?, Option.bind_some]
  cases store.get? key <;> rfl

@[simp]
theorem gives_get? (key : String) : store.gives (.get? key) = some ((store.get? key).map (·.body)) := by
  unfold Invocation.get?
  rw [gives_bind]
  have h : store.gives (.ask (.get key)) = store.reply? (.get key) := rfl
  rw [h]
  simp only [reply?, Option.bind_some]
  cases store.get? key <;> rfl

@[simp]
theorem gives_head (key : String) : store.gives (.head key) = some (store.head? key) := rfl

@[simp]
theorem gives_list (start : String) (delimiter : Option String) :
    store.gives (.list start delimiter) = some (store.list start delimiter) := rfl

end Store

namespace Program

variable {α β : Type}

/-- All calls of the program look at the store, one that fails makes it fail, and it is not cut off. -/
def Reads : CloudProgram (Except Failure α) → Prop
  | Program.done _ => True
  | Program.ask c next => c.IsReading ∧ ∀ reply, (next reply).Reads ∧ (c.Failed reply → ∃ e, next reply = .done (.error e))
  | Program.halt _ => False

theorem Reads.bind {f : Except Failure α → CloudProgram (Except Failure β)} (hf : ∀ r, (f r).Reads)
    (herror : ∀ e, f (.error e) = .done (.error e)) :
    ∀ {p : CloudProgram (Except Failure α)}, p.Reads → (p.bind f).Reads
  | Program.done r, _ => hf r
  | Program.ask c next, hp => by
    refine ⟨hp.1, fun reply => ⟨Reads.bind hf herror (hp.2 reply).1, fun hfail => ?_⟩⟩
    obtain ⟨e, he⟩ := (hp.2 reply).2 hfail
    exact ⟨e, (congrArg (Program.bind · f) he).trans (herror e)⟩
  | Program.halt _, hp => hp.elim

theorem Reads.only : ∀ {p : CloudProgram (Except Failure α)}, p.Reads → Only (I := Cloud) CloudCall.IsReading p
  | Program.done _, _ => trivial
  | Program.ask _ _, hp => ⟨hp.1, fun reply => Reads.only (hp.2 reply).1⟩
  | Program.halt _, hp => hp.elim

end Program

namespace Invocation

variable {α β σ : Type}

/-- **The invocation only looks at the store**, and a call that fails makes it fail. -/
structure Reads (x : Invocation α) : Prop where
  run : Program.Reads x.run

theorem Reads.only {x : Invocation α} (h : x.Reads) : x.Only CloudCall.IsReading := h.run.only

theorem Reads.passive {x : Invocation α} (h : x.Reads) : x.Only CloudCall.IsPassive :=
  h.only.mono fun _ => CloudCall.IsReading.isPassive

theorem reads_pure (a : α) : (pure a : Invocation α).Reads := ⟨trivial⟩

theorem reads_throw (e : Failure) : (throw e : Invocation α).Reads := ⟨trivial⟩

theorem reads_ofExcept (r : Except Failure α) : (ofExcept r).Reads := ⟨trivial⟩

theorem Reads.bind {x : Invocation α} {f : α → Invocation β} (hx : x.Reads) (hf : ∀ a, (f a).Reads) :
    (x >>= f).Reads := by
  have h : ∀ r, Program.Reads (ExceptT.bindCont f r) := fun r => by
    cases r with
    | ok a => exact (hf a).run
    | error e => trivial
  exact ⟨Program.Reads.bind h (fun _ => rfl) hx.run⟩

theorem reads_get (key : String) : (get key).Reads := by
  refine ⟨trivial, fun reply => ⟨trivial, ?_⟩⟩
  rintro ⟨fault, rfl, -⟩
  exact ⟨_, rfl⟩

theorem reads_head (key : String) : (head key).Reads := by
  refine ⟨trivial, fun reply => ⟨trivial, ?_⟩⟩
  rintro ⟨fault, rfl, -⟩
  exact ⟨_, rfl⟩

theorem reads_list (start : String) (delimiter : Option String) : (list start delimiter).Reads := by
  refine ⟨trivial, fun reply => ⟨trivial, ?_⟩⟩
  rintro ⟨fault, rfl, -⟩
  exact ⟨_, rfl⟩

theorem reads_get? (key : String) : (get? key).Reads := by
  refine ⟨trivial, fun reply => ?_⟩
  match reply with
  | .ok body => exact ⟨trivial, by rintro ⟨fault, e, -⟩; cases e⟩
  | .error fault =>
    let rest : Invocation (Option Octets) := if fault.isNotFound then return none else throw (.store fault)
    show Program.Reads rest.run ∧ (_ → ∃ e, rest.run = .done (.error e))
    cases h : fault.isNotFound with
    | true =>
      have e : rest = pure none := if_pos h
      refine ⟨by rw [e]; trivial, ?_⟩
      rintro ⟨fault', e', hf⟩
      cases e'; rw [h] at hf; cases hf
    | false =>
      have e : rest = throw (.store fault) := if_neg (by simp [h])
      exact ⟨by rw [e]; trivial, fun _ => ⟨.store fault, by rw [e]; rfl⟩⟩

/-- **An invocation that only looks at the store gives what the store says**, wherever the calls that look at it leave
the store as it is. -/
theorem Reads.keeps {env : Surroundings Cloud σ} {inv : σ → Prop} {store : Store}
    (hadmits : ∀ c s, c.IsReading → inv s → env.admits c s)
    (hkept : ∀ c s reply s', c.IsReading → inv s → env.answers c s reply s' →
      inv s' ∧ (store.reply? c = some reply ∨ c.Failed reply)) {x : Invocation α} (hx : x.Reads) {s : σ} (hs : inv s) :
    x.Keeps env (fun a s => inv s ∧ store.gives x = some a) s := by
  have hp : ∀ {p : CloudProgram (Except Failure α)} {s : σ}, p.Reads → inv s →
      p.Keeps env (fun r s => ∀ a, r = .ok a → inv s ∧ store.readOff p = some (.ok a)) s := by
    intro p
    induction p with
    | done r => exact fun _ hs a e => ⟨hs, by rw [e]; rfl⟩
    | halt => exact fun hp _ => hp.elim
    | ask c next ih =>
      intro s hp hs
      refine ⟨hadmits c s hp.1 hs, fun reply s' hr => ?_⟩
      obtain ⟨hs', hrep | hfail⟩ := hkept c s reply s' hp.1 hs hr
      · refine Program.Keeps.mono (fun r s h a e => ?_) (ih reply (hp.2 reply).1 hs')
        refine ⟨(h a e).1, ?_⟩
        rw [Store.readOff, hrep]; exact (h a e).2
      · obtain ⟨e, he⟩ := (hp.2 reply).2 hfail
        rw [he]; exact nofun
  refine Program.Keeps.mono (fun r s h a e => ?_) (hp hx.run hs)
  refine ⟨(h a e).1, ?_⟩
  rw [Store.gives, (h a e).2]

end Invocation

open Invocation

namespace ConfigFiles

theorem reads_findIn (folder name : String) : (findIn folder name).Reads := by
  unfold findIn
  split
  · exact (reads_get? _).bind fun _ => reads_pure _
  · refine (reads_list _ _).bind fun listing => ?_
    split
    · exact reads_pure _
    · exact (reads_get _).bind fun _ => reads_pure _
    · exact reads_throw _

theorem reads_findAllIn (name : String) : ∀ folders, (findAllIn name folders).Reads
  | [] => reads_pure _
  | _ :: rest => (reads_findIn _ _).bind fun _ => (reads_findAllIn name rest).bind fun _ => reads_pure _

theorem reads_findFirstIn (name : String) : ∀ folders, (findFirstIn name folders).Reads
  | [] => reads_pure _
  | folder :: rest => by
    refine (reads_findIn folder name).bind fun found => ?_
    cases found with
    | some file => exact reads_pure _
    | none => exact reads_findFirstIn name rest

theorem reads_loadConfig (key : String) (base : Json) : (loadConfig key base).Reads := by
  refine (reads_findAllIn _ _).bind fun files => ?_
  split
  · exact reads_pure _
  · exact reads_ofExcept _

theorem reads_externalConfig (key : String) : (externalConfig key).Reads := by
  refine (reads_findAllIn _ _).bind fun files => (reads_ofExcept _).bind fun config => ?_
  split
  · split
    · exact reads_throw _
    · exact reads_pure _
  · exact reads_throw _

theorem reads_transformSql (key : String) : (transformSql key).Reads := by
  refine (reads_findFirstIn _ _).bind fun found => ?_
  split
  · exact reads_pure _
  · split
    · exact reads_throw _
    · split
      · exact reads_throw _
      · exact reads_pure _

end ConfigFiles

theorem Submission.reads_gather (bucket start successName : String) (limits : BatchLimits) :
    (gather bucket start successName limits).Reads := by
  refine (reads_list _ _).bind fun listing => ?_
  split
  · exact reads_throw _
  · exact reads_pure _

theorem Backlog.reads_next (tablePrefix : String) : (next tablePrefix).Reads :=
  (reads_list _ _).bind fun _ => reads_pure _

namespace Claim

/-- What comes of a claim, by the reply to its creation. -/
def ending (claim : String) : Except StoreFault PutResult → Except Failure String
  | .ok (.written _) => .ok claim
  | .ok (.conflict _) => .error (.duplicate claim)
  | .error fault => .error (.store fault)

theorem run_takeObject (marker : ObjectInfo) : (takeObject marker).run =
    Program.ask (I := Cloud) (.put (key marker.key marker.created) [] .absent)
      fun reply => .done (ending (key marker.key marker.created) reply) := by
  refine congrArg (Program.ask (I := Cloud) _) (funext fun reply => ?_)
  cases reply with
  | error fault => rfl
  | ok result => cases result <;> rfl

theorem only_takeObject {ok : CloudCall → Prop} {marker : ObjectInfo}
    (hput : ok (.put (key marker.key marker.created) [] .absent)) : (takeObject marker).Only ok := by
  refine (only_store (only_call hput)).bind fun result => ?_
  split
  · exact only_pure _
  · exact only_throw _

/-- **To claim a marker is to look at it, and to create an object for what was seen.** -/
theorem only_take {ok : CloudCall → Prop} {marker : String} (hhead : ok (.head marker))
    (hput : ∀ seen : ObjectInfo, ok (.put (key seen.key seen.created) [] .absent)) : (take marker).Only ok := by
  refine (only_store (only_call hhead)).bind fun found => ?_
  split
  · exact only_throw _
  · exact (only_takeObject (hput _)).bind fun _ => only_pure _

end Claim

theorem Invocation.waiting_now : now.Only CloudCall.IsWaiting := only_ask trivial

theorem Invocation.waiting_after (span : Duration) : (after span).Only CloudCall.IsWaiting := only_after span trivial

theorem Invocation.waiting_sleep (span : Duration) : (sleep span).Only CloudCall.IsWaiting := only_ask trivial

theorem Invocation.waiting_count (metric : Metric) : (count metric).Only CloudCall.IsWaiting := only_ask trivial

theorem Invocation.waiting_job (id : String) : (job id).Only CloudCall.IsWaiting := only_warehouse (only_call trivial)

theorem Invocation.Only.passive {α : Type} {x : Invocation α} (h : x.Only CloudCall.IsWaiting) :
    x.Only CloudCall.IsPassive :=
  h.mono fun _ hc => hc.isPassive

theorem Invocation.passive_now : now.Only CloudCall.IsPassive := waiting_now.passive

theorem Invocation.passive_after (span : Duration) : (after span).Only CloudCall.IsPassive := (waiting_after span).passive

theorem Invocation.passive_sleep (span : Duration) : (sleep span).Only CloudCall.IsPassive := (waiting_sleep span).passive

theorem Invocation.passive_count (metric : Metric) : (count metric).Only CloudCall.IsPassive :=
  (waiting_count metric).passive

namespace JobWatch

theorem waiting_waitUntil (jobId : String) (deadline interval : Duration) :
    ∀ rounds, (waitUntil jobId deadline interval rounds).Only CloudCall.IsWaiting
  | 0 => only_halt _
  | rounds + 1 => by
    refine (waiting_job jobId).bind fun status => ?_
    split
    · exact only_pure _
    · split
      · exact only_pure _
      · refine (waiting_after interval).bind fun time => ?_
        split
        · exact only_pure _
        · exact (waiting_sleep _).bind fun _ => waiting_waitUntil jobId deadline interval rounds

theorem waiting_wait (patience : Nat) (jobId : String) (window interval : Duration) :
    (wait patience jobId window interval).Only CloudCall.IsWaiting :=
  (waiting_after window).bind fun _ => waiting_waitUntil ..

theorem waiting_scriptChangedNothing (children : List JobStatus) :
    (scriptChangedNothing children).Only CloudCall.IsWaiting :=
  (only_fitted _ _).bind fun _ => only_pure _

theorem waiting_changedNothing (status : JobStatus) : (changedNothing status).Only CloudCall.IsWaiting := by
  unfold changedNothing
  split
  · exact only_pure _
  · split
    · exact (only_warehouse (only_call trivial)).bind waiting_scriptChangedNothing
    · exact only_pure _

theorem waiting_check (failOnZeroRows : Bool) (status : JobStatus) :
    (check failOnZeroRows status).Only CloudCall.IsWaiting := by
  unfold check
  split
  · exact (waiting_count _).bind fun _ => only_throw _
  · split
    · refine (waiting_changedNothing status).bind fun nothing => ?_
      split
      · exact (waiting_count _).bind fun _ => only_throw _
      · exact only_pure _
    · exact only_pure _

/-- A job that passes the check has not failed. -/
theorem keeps_check {σ : Type} {env : Surroundings Cloud σ} {failOnZeroRows : Bool} {status : JobStatus} {s : σ}
    {fact : σ → Prop} (hwaits : ∀ {α : Type} {x : Invocation α}, x.Only CloudCall.IsWaiting →
      x.Keeps env (fun _ => fact) s) :
    (check failOnZeroRows status).Keeps env (fun _ t => fact t ∧ status.error = none) s := by
  cases herror : status.error with
  | none => exact (hwaits (waiting_check _ _)).mono fun _ _ h => ⟨h, rfl⟩
  | some error =>
    unfold check
    rw [herror]
    exact (hwaits (waiting_count _)).bind fun _ _ _ => keeps_throw _

end JobWatch
end Intake
