import Intake.TableLock
/-!
# Surroundings — what is true of a program whatever it is answered

Surroundings admit some calls in each of their states, and may answer an admitted call in several ways.  A program keeps
to them (`Program.Keeps`) if all the calls it makes are admitted, whatever it is answered, and its result is as promised.
A program that is cut off promises nothing.  The same is said of invocations, whose failures promise nothing either, and
of invocations with a handle on a lock, which is of one table all the time and changes its version only; these may promise
something of their failures too.
-/
namespace Intake

/-- Surroundings that may answer in several ways. -/
structure Surroundings (I : Interface) (σ : Type) where
  admits : I.Call → σ → Prop
  answers : (call : I.Call) → σ → I.Reply call → σ → Prop

namespace Program

variable {I : Interface} {α β σ : Type} {env : Surroundings I σ} {s : σ}

/-- **The program makes admitted calls only**, and promises something of its result and of the state it leaves. -/
def Keeps (env : Surroundings I σ) (post : α → σ → Prop) : Program I α → σ → Prop
  | .done a, s => post a s
  | .ask c next, s => env.admits c s ∧ ∀ reply s', env.answers c s reply s' → (next reply).Keeps env post s'
  | .halt _, _ => True

theorem Keeps.mono {post post' : α → σ → Prop} (h : ∀ a s, post a s → post' a s) :
    ∀ {p : Program I α} {s : σ}, p.Keeps env post s → p.Keeps env post' s
  | .done a, s, hp => h a s hp
  | .ask _ _, _, hp => ⟨hp.1, fun reply s' hr => Keeps.mono h (hp.2 reply s' hr)⟩
  | .halt _, _, _ => trivial

theorem Keeps.and {post post' : α → σ → Prop} : ∀ {p : Program I α} {s : σ}, p.Keeps env post s → p.Keeps env post' s →
    p.Keeps env (fun a s => post a s ∧ post' a s) s
  | .done _, _, hp, hp' => ⟨hp, hp'⟩
  | .ask _ _, _, hp, hp' => ⟨hp.1, fun reply s' hr => Keeps.and (hp.2 reply s' hr) (hp'.2 reply s' hr)⟩
  | .halt _, _, _, _ => trivial

/-- One program after the other keeps to the surroundings if the second does wherever the first may leave it. -/
theorem Keeps.bind {mid : α → σ → Prop} {post : β → σ → Prop} {f : α → Program I β} :
    ∀ {p : Program I α} {s : σ}, p.Keeps env mid s → (∀ a s, mid a s → (f a).Keeps env post s) →
      (p.bind f).Keeps env post s
  | .done a, s, hp, hf => hf a s hp
  | .ask _ _, _, hp, hf => ⟨hp.1, fun reply s' hr => Keeps.bind (hp.2 reply s' hr) hf⟩
  | .halt _, _, _, _ => trivial

/-- What no answer makes untrue holds in the end as well. -/
theorem Keeps.carry {post : α → σ → Prop} {fact : σ → Prop}
    (hlasts : ∀ {c s reply s'}, env.admits c s → env.answers c s reply s' → fact s → fact s') :
    ∀ {p : Program I α} {s : σ}, p.Keeps env post s → fact s → p.Keeps env (fun a s => post a s ∧ fact s) s
  | .done _, _, hp, hs => ⟨hp, hs⟩
  | .ask _ _, _, hp, hs => ⟨hp.1, fun reply s' hr => Keeps.carry hlasts (hp.2 reply s' hr) (hlasts hp.1 hr hs)⟩
  | .halt _, _, _, _ => trivial

/-- The program makes only calls of a kind. -/
def Only (ok : I.Call → Prop) : Program I α → Prop
  | .done _ => True
  | .ask c next => ok c ∧ ∀ reply, (next reply).Only ok
  | .halt _ => True

theorem Only.bind {ok : I.Call → Prop} {f : α → Program I β} :
    ∀ {p : Program I α}, p.Only ok → (∀ a, (f a).Only ok) → (p.bind f).Only ok
  | .done a, _, hf => hf a
  | .ask _ _, hp, hf => ⟨hp.1, fun reply => Only.bind (hp.2 reply) hf⟩
  | .halt _, _, _ => trivial

theorem Only.mono {ok ok' : I.Call → Prop} (h : ∀ c, ok c → ok' c) : ∀ {p : Program I α}, p.Only ok → p.Only ok'
  | .done _, _ => trivial
  | .ask c _, hp => ⟨h c hp.1, fun reply => Only.mono h (hp.2 reply)⟩
  | .halt _, _ => trivial

/-- **Calls that are admitted, and leave something true, leave it true all together.** -/
theorem Only.keeps {ok : I.Call → Prop} {inv : σ → Prop} (hadmits : ∀ c s, ok c → inv s → env.admits c s)
    (hkept : ∀ c s reply s', ok c → inv s → env.answers c s reply s' → inv s') :
    ∀ {p : Program I α} {s : σ}, p.Only ok → inv s → p.Keeps env (fun _ s => inv s) s
  | .done _, _, _, hs => hs
  | .ask c _, s, hp, hs => ⟨hadmits c s hp.1 hs, fun reply s' hr =>
      Only.keeps hadmits hkept (hp.2 reply) (hkept c s reply s' hp.1 hs hr)⟩
  | .halt _, _, _, _ => trivial

end Program

/-! ## Calls of a kind -/

/-- Surroundings that admit calls of a kind, and answer them in every way. -/
def Surroundings.wild (ok : CloudCall → Prop) : Surroundings Cloud Unit := ⟨fun c _ => ok c, fun _ _ _ _ => True⟩

namespace Program

variable {α σ : Type} {ok : CloudCall → Prop} {post : α → Unit → Prop}

theorem only_of_wild : ∀ {p : CloudProgram α}, Keeps (.wild ok) post p () → Only (I := Cloud) ok p
  | Program.done _, _ => trivial
  | Program.ask _ _, h => ⟨h.1, fun reply => only_of_wild (h.2 reply () trivial)⟩
  | Program.halt _, _ => trivial

/-- Calls of a kind that is always admitted keep what every answer to one of them keeps. -/
theorem keeps_of_wild {env : Surroundings Cloud σ} {fact : σ → Prop}
    (hadmits : ∀ c s, ok c → fact s → env.admits c s)
    (hkept : ∀ c s reply s', ok c → fact s → env.answers c s reply s' → fact s') :
    ∀ {p : CloudProgram α} {s : σ}, Keeps (.wild ok) post p () → fact s → p.Keeps env (fun a s => post a () ∧ fact s) s
  | Program.done _, _, hp, hs => ⟨hp, hs⟩
  | Program.ask c _, s, hp, hs => ⟨hadmits c s hp.1 hs, fun reply s' hr =>
      keeps_of_wild hadmits hkept (hp.2 reply () trivial) (hkept c s reply s' hp.1 hs hr)⟩
  | Program.halt _, _, _, _ => trivial

end Program

namespace Invocation

variable {α β σ : Type} {env : Surroundings Cloud σ} {good : α → σ → Prop} {s : σ}

/-- The invocation makes admitted calls only, and promises something if it succeeds. -/
def Keeps (env : Surroundings Cloud σ) (good : α → σ → Prop) (x : Invocation α) (s : σ) : Prop :=
  Program.Keeps env (fun r s => ∀ a, r = .ok a → good a s) x.run s

theorem Keeps.mono {good' : α → σ → Prop} {x : Invocation α} (h : x.Keeps env good s)
    (hg : ∀ a s, good a s → good' a s) : x.Keeps env good' s :=
  Program.Keeps.mono (fun _ s hr a e => hg a s (hr a e)) h

theorem Keeps.and {good' : α → σ → Prop} {x : Invocation α} (h : x.Keeps env good s) (h' : x.Keeps env good' s) :
    x.Keeps env (fun a s => good a s ∧ good' a s) s :=
  Program.Keeps.mono (fun _ _ hr a e => ⟨hr.1 a e, hr.2 a e⟩) (Program.Keeps.and h h')

theorem Keeps.carry {fact : σ → Prop} {x : Invocation α}
    (hlasts : ∀ {c s reply s'}, env.admits c s → env.answers c s reply s' → fact s → fact s') (h : x.Keeps env good s)
    (hs : fact s) : x.Keeps env (fun a s => good a s ∧ fact s) s :=
  Program.Keeps.mono (fun _ _ hr a e => ⟨hr.1 a e, hr.2⟩) (Program.Keeps.carry hlasts h hs)

theorem keeps_pure {a : α} (h : good a s) : (pure a : Invocation α).Keeps env good s :=
  fun _ e => by cases e; exact h

theorem keeps_throw (e : Failure) : (throw e : Invocation α).Keeps env good s := nofun

theorem keeps_halt (cause : Halt) : (halt cause : Invocation α).Keeps env good s := trivial

theorem keeps_ofExcept {r : Except Failure α} (h : ∀ a, r = .ok a → good a s) : (ofExcept r).Keeps env good s := h

theorem Keeps.bind {mid : α → σ → Prop} {good : β → σ → Prop} {x : Invocation α} {f : α → Invocation β}
    (hx : x.Keeps env mid s) (hf : ∀ a s, mid a s → (f a).Keeps env good s) : (x >>= f).Keeps env good s := by
  refine Program.Keeps.bind hx fun r s hr => ?_
  cases r with
  | ok a => exact hf a s (hr a rfl)
  | error e => exact nofun

theorem keeps_ask {c : CloudCall} {good : c.Reply → σ → Prop} (hadmits : env.admits c s)
    (h : ∀ r s', env.answers c s r s' → good r s') : (ask c).Keeps env good s :=
  ⟨hadmits, fun r s' hr a e => by cases e; exact h r s' hr⟩

theorem keeps_store {p : CloudProgram (Except StoreFault α)}
    (h : p.Keeps env (fun r s => ∀ a, r = .ok a → good a s) s) : (store p).Keeps env good s := by
  refine Program.Keeps.bind h fun r s hr a e => ?_
  cases r with
  | ok b => exact hr a (congrArg Except.ok (Except.ok.inj e))
  | error fault => cases e

theorem keeps_warehouse {p : CloudProgram (Except WarehouseFault α)}
    (h : p.Keeps env (fun r s => ∀ a, r = .ok a → good a s) s) : (warehouse p).Keeps env good s := by
  refine Program.Keeps.bind h fun r s hr a e => ?_
  cases r with
  | ok b => exact hr a (congrArg Except.ok (Except.ok.inj e))
  | error fault => cases e

theorem fitted_of_lt {limit n : Nat} (h : n < limit) : fitted limit n = pure n := if_pos h

theorem fitted_of_le {limit n : Nat} (h : limit ≤ n) : fitted limit n = halt .overflow := if_neg (Nat.not_lt.2 h)

theorem keeps_fitted {limit n : Nat} {good : Nat → σ → Prop} (h : n < limit → good n s) :
    (fitted limit n).Keeps env good s := by
  unfold fitted
  split
  · rename_i hroom
    exact keeps_pure (h hroom)
  · exact keeps_halt .overflow

theorem keeps_after {span : Duration} {good : Duration → σ → Prop} (hadmits : env.admits .now s)
    (h : ∀ now s', env.answers .now s now s' → good (now + span) s') : (after span).Keeps env good s :=
  (keeps_ask hadmits h).bind fun _ _ hgood => keeps_fitted fun _ => hgood

def Only (ok : CloudCall → Prop) (x : Invocation α) : Prop := Program.Only (I := Cloud) ok x.run

variable {ok : CloudCall → Prop}

theorem only_pure (a : α) : (pure a : Invocation α).Only ok := trivial

theorem only_throw (e : Failure) : (throw e : Invocation α).Only ok := trivial

theorem only_halt (cause : Halt) : (halt cause : Invocation α).Only ok := trivial

theorem only_ofExcept (r : Except Failure α) : (ofExcept r).Only ok := trivial

theorem Only.bind {x : Invocation α} {f : α → Invocation β} (hx : x.Only ok) (hf : ∀ a, (f a).Only ok) :
    (x >>= f).Only ok := by
  refine Program.Only.bind hx fun r => ?_
  cases r with
  | ok a => exact hf a
  | error e => trivial

theorem only_ofExcept_bind {r : Except Failure α} {f : α → Invocation β} (hf : ∀ a, r = .ok a → (f a).Only ok) :
    (ofExcept r >>= f).Only ok := by
  cases r with
  | ok a => exact hf a rfl
  | error e => trivial

theorem only_ask {c : CloudCall} (h : ok c) : (ask c).Only ok := ⟨h, fun _ => trivial⟩

theorem only_fitted (limit n : Nat) : (fitted limit n).Only ok := by
  unfold fitted
  split
  · exact only_pure n
  · exact only_halt .overflow

theorem only_after (span : Duration) (h : ok .now) : (after span).Only ok :=
  (only_ask h).bind fun _ => only_fitted _ _

theorem only_call {c : CloudCall} (h : ok c) : Program.Only (I := Cloud) ok (CloudProgram.ask c) := ⟨h, fun _ => trivial⟩

theorem only_store {p : CloudProgram (Except StoreFault α)} (h : Program.Only (I := Cloud) ok p) : (store p).Only ok :=
  Program.Only.bind h fun _ => trivial

theorem only_warehouse {p : CloudProgram (Except WarehouseFault α)} (h : Program.Only (I := Cloud) ok p) :
    (warehouse p).Only ok :=
  Program.Only.bind h fun _ => trivial

theorem Only.mono {ok' : CloudCall → Prop} {x : Invocation α} (h : ∀ c, ok c → ok' c) (hx : x.Only ok) : x.Only ok' :=
  Program.Only.mono h hx

theorem Only.keeps {inv : σ → Prop} {x : Invocation α} (hadmits : ∀ c s, ok c → inv s → env.admits c s)
    (hkept : ∀ c s reply s', ok c → inv s → env.answers c s reply s' → inv s') (hx : x.Only ok) (hs : inv s) :
    x.Keeps env (fun _ s => inv s) s :=
  Program.Keeps.mono (fun _ _ h _ _ => h) (Program.Only.keeps hadmits hkept hx hs)

theorem Only.keeps_all {x : Invocation α} (hx : x.Only ok) (hadmits : ∀ {c s}, ok c → env.admits c s) :
    x.Keeps env (fun _ _ => True) s :=
  hx.keeps (fun _ _ hc _ => hadmits hc) (fun _ _ _ _ _ _ _ => trivial) trivial

/-- The invocation, whatever comes of it. -/
def errand (x : Invocation α) : CloudProgram Unit := Program.bind x.run fun _ => .done ()

theorem Keeps.errand {x : Invocation α} (h : x.Keeps env good s) : x.errand.Keeps env (fun _ _ => True) s :=
  Program.Keeps.bind h fun _ _ _ => trivial

end Invocation

/-- A handle that has seen a version of the same lock. -/
def TableLock.seen (lock : TableLock) (version : Option String) : TableLock := { lock with version := version }

namespace Leased

open Program (bind_assoc)

variable {α β σ : Type} {env : Surroundings Cloud σ} {lock : TableLock} {good : α → Option String → σ → Prop}
  {bad : Option String → σ → Prop} {version : Option String} {s : σ}

/-- The invocation makes admitted calls only, its handle stays one on the same lock, and it promises something if it
succeeds, and something else if it fails. -/
def Keeps (env : Surroundings Cloud σ) (lock : TableLock) (good : α → Option String → σ → Prop) (x : Leased α)
    (version : Option String) (s : σ) (bad : Option String → σ → Prop := fun _ _ => True) : Prop :=
  Program.Keeps env (fun r s => ∃ version', r.2 = some (lock.seen version') ∧ (∀ a, r.1 = .ok a → good a version' s) ∧
    ∀ e, r.1 = .error e → bad version' s) (x.run.run (some (lock.seen version))) s

theorem Keeps.mono {good' : α → Option String → σ → Prop} {x : Leased α} (h : x.Keeps env lock good version s bad)
    (hg : ∀ a v s, good a v s → good' a v s) : x.Keeps env lock good' version s bad := by
  refine Program.Keeps.mono (fun r s hr => ?_) h
  obtain ⟨v, e, hr, hbad⟩ := hr
  exact ⟨v, e, fun a e => hg a v s (hr a e), hbad⟩

theorem keeps_pure {a : α} (h : good a version s) : (pure a : Leased α).Keeps env lock good version s bad :=
  ⟨version, rfl, fun _ e => by cases e; exact h, nofun⟩

theorem keeps_throw (e : Failure) (h : bad version s) : (throw e : Leased α).Keeps env lock good version s bad :=
  ⟨version, rfl, nofun, fun _ _ => h⟩

theorem run_bind (x : Leased α) (f : α → Leased β) (held : Option TableLock) :
    (x >>= f).run.run held = (x.run.run held).bind fun r =>
      match r.1 with
      | .ok a => (f a).run.run r.2
      | .error e => .done (.error e, r.2) := by
  show (x held).bind _ = (x held).bind _
  congr
  funext r
  obtain ⟨r, held⟩ := r
  cases r <;> rfl

theorem Keeps.bind {mid : α → Option String → σ → Prop} {good : β → Option String → σ → Prop} {x : Leased α}
    {f : α → Leased β} (hx : x.Keeps env lock mid version s bad)
    (hf : ∀ a v s, mid a v s → (f a).Keeps env lock good v s bad) : (x >>= f).Keeps env lock good version s bad := by
  unfold Keeps
  rw [run_bind]
  refine Program.Keeps.bind hx fun r s hr => ?_
  obtain ⟨r, held⟩ := r
  obtain ⟨v, rfl, hr, hbad⟩ := hr
  cases r with
  | ok a => exact hf a v s (hr a rfl)
  | error e => exact ⟨v, rfl, nofun, fun _ _ => hbad e rfl⟩

theorem keeps_lift {x : Invocation α} (h : x.Keeps env (fun a s => good a version s) s) :
    (lift x).Keeps env lock good version s :=
  Program.Keeps.bind h fun _ _ hr => ⟨version, rfl, hr, fun _ _ => trivial⟩

/-- An invocation that does not use the lock leaves the version that was seen. -/
theorem keeps_lift_same {x : Invocation α} {fact : α → σ → Prop} (h : x.Keeps env fact s) :
    (lift x).Keeps env lock (fun a v s => v = version ∧ fact a s) version s :=
  keeps_lift (h.mono fun _ _ ha => ⟨rfl, ha⟩)

/-- The same, where something is to be promised of failures that no answer makes untrue. -/
theorem keeps_lift_lasting {x : Invocation α} {fact : α → σ → Prop}
    (hlasts : ∀ {c s reply s'}, env.admits c s → env.answers c s reply s' → bad version s → bad version s')
    (hs : bad version s) (h : x.Keeps env fact s) :
    (lift x).Keeps env lock (fun a v s => v = version ∧ fact a s) version s bad :=
  Program.Keeps.bind (Program.Keeps.carry hlasts h hs) fun _ _ hr =>
    ⟨version, rfl, fun a e => ⟨rfl, hr.1 a e⟩, fun _ _ => hr.2⟩

/-- Calls of a kind that is always admitted keep what every answer to one of them keeps. -/
theorem Keeps.of_wild {ok : CloudCall → Prop} {fact : σ → Prop} {x : Leased α}
    (h : x.Keeps (.wild ok) lock (fun _ _ _ => True) version ()) (hadmits : ∀ c s, ok c → fact s → env.admits c s)
    (hkept : ∀ c s reply s', ok c → fact s → env.answers c s reply s' → fact s') (hs : fact s) :
    x.Keeps env lock (fun _ _ s => fact s) version s := by
  refine Program.Keeps.mono (fun r t hr => ?_) (Program.keeps_of_wild hadmits hkept h hs)
  obtain ⟨⟨v, hv, -, -⟩, ht⟩ := hr
  exact ⟨v, hv, fun _ _ => ht, fun _ _ => trivial⟩

theorem Keeps.life {x : Leased α} (h : x.Keeps env lock good version s bad) :
    Invocation.Keeps env (fun a s => ∃ v, good a v s) (ExceptT.mk do
      let (result, _) ← x.run.run (some (lock.seen version))
      return result) s := by
  refine Program.Keeps.bind h fun r s hr => ?_
  obtain ⟨r, held⟩ := r
  obtain ⟨v, -, hgood, -⟩ := hr
  exact fun a e => ⟨v, hgood a e⟩

theorem run_recordError (failure : Failure) (held : TableLock) :
    (recordError failure).run.run (some held) =
      (held.recordError failure.message).bind fun r => .done (.ok (), some r.2) := by
  unfold recordError
  show Program.bind (Program.bind (Program.bind (held.recordError failure.message) _) _) _ = _
  rw [bind_assoc, bind_assoc]
  congr

theorem run_recording (x : Leased α) (held : Option TableLock) :
    (recording x).run.run held = (x.run.run held).bind fun r =>
      match r.1 with
      | .ok a => .done (.ok a, r.2)
      | .error e => (do recordError e; throw e : Leased α).run.run r.2 := by
  show (x held).bind _ = (x held).bind _
  congr
  funext r
  obtain ⟨r, held⟩ := r
  cases r <;> rfl

/-- Writing a text as the lock's body: the handle sees the version that was written. -/
theorem keeps_write {text : String} {good : Option String → σ → Prop}
    (hadmits : env.admits (.put lock.key (Utf8.encode text) (.unchanged version)) s)
    (hok : ∀ v s', env.answers (.put lock.key (Utf8.encode text) (.unchanged version)) s (.ok (.written v)) s' →
      good (some v) s')
    (hfails : ∀ r s', env.answers (.put lock.key (Utf8.encode text) (.unchanged version)) s r s' → bad version s') :
    ((lock.seen version).write text).Keeps env
      (fun r s => ∃ v, r.2 = lock.seen v ∧ (r.1 = .ok () → good v s) ∧ ∀ e, r.1 = .error e → bad v s) s := by
  refine ⟨hadmits, fun r s' hr => ?_⟩
  match r, hr with
  | .error fault, hr => exact ⟨version, rfl, nofun, fun _ _ => hfails _ s' hr⟩
  | .ok (.conflict current), hr => exact ⟨version, rfl, nofun, fun _ _ => hfails _ s' hr⟩
  | .ok (.written v), hr => exact ⟨some v, rfl, fun _ => hok v s' hr, nofun⟩

/-- Where failures can be left in the lock, recording them changes no promise. -/
theorem keeps_recording {x : Leased α}
    (hrecords : ∀ (failure : Failure) version s, bad version s →
      env.admits (.put lock.key (Utf8.encode (lock.errorText failure.message)) (.unchanged version)) s)
    (h : x.Keeps env lock good version s bad) : (recording x).Keeps env lock good version s := by
  unfold Keeps
  rw [run_recording]
  refine Program.Keeps.bind h fun r s hr => ?_
  obtain ⟨r, held⟩ := r
  obtain ⟨v, rfl, hr, hbad⟩ := hr
  cases r with
  | ok a => exact ⟨v, rfl, fun b e => by cases e; exact hr a rfl, nofun⟩
  | error e =>
    simp only [run_bind, run_recordError, bind_assoc]
    have hw : ((lock.seen v).write (lock.errorText e.message)).Keeps env
        (fun r _ => ∃ v, r.2 = lock.seen v ∧ (r.1 = .ok () → True) ∧ ∀ e, r.1 = .error e → True) s :=
      keeps_write (hrecords e v s (hbad e rfl)) (fun _ _ _ => trivial) fun _ _ _ => trivial
    refine Program.Keeps.bind hw fun r s hr => ?_
    obtain ⟨r, held⟩ := r
    obtain ⟨v', rfl, -⟩ := hr
    exact ⟨v', rfl, nofun, fun _ _ => trivial⟩

theorem keeps_claimLock {id : String} {good : Bool → Option String → σ → Prop}
    (hadmits : env.admits (.put lock.key (Utf8.encode id) (.unchanged version)) s)
    (hok : ∀ v s', env.answers (.put lock.key (Utf8.encode id) (.unchanged version)) s (.ok (.written v)) s' →
      good true (some v) s')
    (hfails : ∀ r s', env.answers (.put lock.key (Utf8.encode id) (.unchanged version)) s r s' → bad version s') :
    (claimLock id).Keeps env lock good version s bad := by
  unfold claimLock Keeps
  rw [run_bind]
  show Program.Keeps env _ (Program.bind (Program.bind ((lock.seen version).write id) _) _) s
  rw [bind_assoc]
  refine Program.Keeps.bind (keeps_write hadmits hok hfails) fun r s hr => ?_
  obtain ⟨r, held⟩ := r
  obtain ⟨v, rfl, hr, hbad⟩ := hr
  cases r with
  | ok u => exact ⟨v, rfl, fun b e => by cases e; exact hr rfl, nofun⟩
  | error e => exact ⟨v, rfl, nofun, fun _ _ => hbad e rfl⟩

/-- Reading the lock: the version first, then the body. -/
theorem keeps_readLock {good : Option LockBody → Option String → σ → Prop}
    (hhead : env.admits (.head lock.key) s)
    (hnone : ∀ s₁, env.answers (.head lock.key) s (.ok none) s₁ → good none none s₁)
    (hget : ∀ seen s₁, env.answers (.head lock.key) s (.ok (some seen)) s₁ → env.admits (.get lock.key) s₁)
    (hbody : ∀ seen s₁ body s₂, env.answers (.head lock.key) s (.ok (some seen)) s₁ →
      env.answers (.get lock.key) s₁ (.ok body) s₂ →
      good (LockBody.ofOctets? lock.jobPrefix body) (some seen.version) s₂)
    (hgone : ∀ seen s₁ fault s₂, env.answers (.head lock.key) s (.ok (some seen)) s₁ →
      env.answers (.get lock.key) s₁ (.error fault) s₂ → fault.isNotFound = true → good none none s₂) :
    readLock.Keeps env lock good version s := by
  unfold readLock Keeps
  rw [run_bind]
  show Program.Keeps env _ (Program.bind (Program.bind ((lock.seen version).read) _) _) s
  rw [bind_assoc]
  have hread : ((lock.seen version).read).Keeps env
      (fun r s => ∃ v, r.2 = lock.seen v ∧ ∀ b, r.1 = .ok b → good b v s) s := by
    refine ⟨hhead, fun r s₁ hr => ?_⟩
    match r, hr with
    | .error fault, _ => exact ⟨version, rfl, nofun⟩
    | .ok none, hr => exact ⟨none, rfl, fun b e => by cases e; exact hnone s₁ hr⟩
    | .ok (some seen), hr =>
      refine ⟨hget seen s₁ hr, fun r' s₂ hr' => ?_⟩
      match r', hr' with
      | .ok body, hr' =>
        exact ⟨some seen.version, rfl, fun b e => Except.ok.inj e ▸ hbody seen s₁ body s₂ hr hr'⟩
      | .error fault, hr' =>
        show Program.Keeps env _ (if fault.isNotFound = true then _ else _) s₂
        split
        · rename_i hf
          exact ⟨none, rfl, fun b e => by cases e; exact hgone seen s₁ fault s₂ hr hr' hf⟩
        · exact ⟨version, rfl, nofun⟩
  refine Program.Keeps.bind hread fun r s hr => ?_
  obtain ⟨r, held⟩ := r
  obtain ⟨v, rfl, hr⟩ := hr
  cases r with
  | ok b => exact ⟨v, rfl, fun c e => by cases e; exact hr b rfl, nofun⟩
  | error e => exact ⟨v, rfl, nofun, fun _ _ => trivial⟩

/-- Giving the lock up: only a handle that has seen one makes a call. -/
theorem keeps_releaseLock {good : Unit → Option String → σ → Prop} (hnone : version = none → good () none s)
    (hadmits : ∀ v, version = some v → env.admits (.delete lock.key (.version v)) s)
    (hok : ∀ v r s', version = some v → env.answers (.delete lock.key (.version v)) s (.ok r) s' →
      (∀ current, r ≠ .conflict current) → good () none s') : releaseLock.Keeps env lock good version s := by
  unfold releaseLock Keeps
  rw [run_bind]
  show Program.Keeps env _ (Program.bind (Program.bind ((lock.seen version).release) _) _) s
  rw [bind_assoc]
  have hrel : ((lock.seen version).release).Keeps env
      (fun r s => ∃ v, r.2 = lock.seen v ∧ ∀ u, r.1 = .ok u → good u v s) s := by
    cases version with
    | none => exact ⟨none, rfl, fun _ _ => hnone rfl⟩
    | some v =>
      refine ⟨hadmits v rfl, fun r s' hr => ?_⟩
      match r, hr with
      | .error fault, _ => exact ⟨some v, rfl, nofun⟩
      | .ok (.conflict current), _ => exact ⟨some v, rfl, nofun⟩
      | .ok .deleted, hr => exact ⟨none, rfl, fun _ _ => hok v _ s' rfl hr nofun⟩
      | .ok .notFound, hr => exact ⟨none, rfl, fun _ _ => hok v _ s' rfl hr nofun⟩
  refine Program.Keeps.bind hrel fun r s hr => ?_
  obtain ⟨r, held⟩ := r
  obtain ⟨v, rfl, hr⟩ := hr
  cases r with
  | ok u => exact ⟨v, rfl, fun c e => by cases e; exact hr u rfl, nofun⟩
  | error e => exact ⟨v, rfl, nofun, fun _ _ => trivial⟩

end Leased
end Intake
