import Intake.Proofs.Keys
import Intake.Proofs.Pool
/-!
# Handles — a handle that has lost the lock does not overwrite it

Any number of handles on one lock are read, claimed, released and written failures through, call by call in any order,
while others write and delete the lock as they like.  Of each handle it is kept from the replies what it remembers of the
lock and since when (`Memory.after`); reading takes two calls, and what is remembered dates from the first.  A write that
takes place replaces what the handle remembers, which nobody has touched since then, because no generation is given out
twice (`Handles.Kept`).
-/
namespace Intake

/-- **What comes of a call that does not fail**: the store does what it is asked to, at some instant. -/
def Store.Obeys : (c : CloudCall) → Store → c.Reply → Store → Prop
  | .put key body precondition, s, reply, t =>
    ∃ now, reply = .ok (s.put key body precondition now).1 ∧ t = (s.put key body precondition now).2
  | .delete key precondition, s, reply, t =>
    reply = .ok (s.delete key precondition).1 ∧ t = (s.delete key precondition).2
  | .get key, s, reply, t => s.reply? (.get key) = some reply ∧ t = s
  | .head key, s, reply, t => s.reply? (.head key) = some reply ∧ t = s
  | _, s, _, t => t = s

/-- The key of the object that the call has written or deleted. -/
def Deed.touched? : Deed → Option String
  | ⟨_, .put key _ _, .ok (.written _)⟩ => some key
  | ⟨_, .delete key _, .ok .deleted⟩ => some key
  | _ => none

def Deed.Touches (key : String) (deed : Deed) : Prop := deed.touched? = some key

/-- **A call touches an object, or leaves it as it is.**  An object that was touched is gone or of a new generation. -/
theorem Store.Obeys.cases {c : CloudCall} {s t : Store} {reply : c.Reply} (h : Obeys c s reply t) (key : String) :
    s.nextGeneration ≤ t.nextGeneration ∧
      (¬ Deed.Touches key ⟨s, c, reply⟩ ∧ t.get? key = s.get? key ∨
        ∀ object, t.get? key = some object → s.nextGeneration ≤ object.generation) := by
  cases c with
  | put other body precondition =>
    obtain ⟨now, rfl, rfl⟩ := h
    obtain ⟨current, hput⟩ | ⟨-, hput⟩ := s.put_cases other body precondition now
    · rw [hput]
      exact ⟨Nat.le_refl _, .inl ⟨nofun, rfl⟩⟩
    · rw [hput]
      refine ⟨Nat.le_succ _, ?_⟩
      by_cases hkey : other = key
      · subst hkey
        refine .inr fun object hobject => ?_
        rw [get?_write_self, Option.some.injEq] at hobject
        rw [← hobject]
      · exact .inl ⟨fun h => hkey (Option.some.inj h), get?_write_of_ne _ _ _ (Ne.symm hkey)⟩
  | delete other precondition =>
    obtain ⟨rfl, rfl⟩ := h
    obtain ⟨result, hne, hdelete⟩ | ⟨-, -, hdelete⟩ := s.delete_cases other precondition
    · rw [hdelete]
      refine ⟨Nat.le_refl _, .inl ⟨?_, rfl⟩⟩
      cases result with
      | deleted => exact absurd rfl hne
      | _ => exact nofun
    · rw [hdelete]
      refine ⟨Nat.le_refl _, ?_⟩
      by_cases hkey : other = key
      · subst hkey
        refine .inr fun object hobject => ?_
        rw [get?_remove_self] at hobject
        cases hobject
      · exact .inl ⟨fun h => hkey (Option.some.inj h), get?_remove_of_ne _ (Ne.symm hkey)⟩
  | get => exact h.2 ▸ ⟨Nat.le_refl _, .inl ⟨nofun, rfl⟩⟩
  | head => exact h.2 ▸ ⟨Nat.le_refl _, .inl ⟨nofun, rfl⟩⟩
  | _ => exact h ▸ ⟨Nat.le_refl _, .inl ⟨nofun, rfl⟩⟩

/-- **A write takes place, unless it is refused.** -/
theorem Store.Obeys.put_cases {key : String} {body : Octets} {precondition : Precondition} {s t : Store}
    {reply : Except StoreFault PutResult} (h : Obeys (.put key body precondition) s reply t) :
    refuses? precondition (s.get? key) = none ∧ reply = .ok (.written (decimal s.nextGeneration)) ∧
        (∃ now, t = s.write key body now) ∨
      ∃ current, refuses? precondition (s.get? key) = some current ∧ reply = .ok (.conflict current) ∧ t = s := by
  obtain ⟨now, rfl, rfl⟩ := h
  unfold put
  cases hrefused : refuses? precondition (s.get? key) with
  | none => exact .inl ⟨rfl, rfl, now, rfl⟩
  | some current => exact .inr ⟨current, rfl, rfl, rfl⟩

/-- **A deletion takes place, unless it is refused or there is nothing.** -/
theorem Store.Obeys.delete_cases {key : String} {precondition : Precondition} {s t : Store}
    {reply : Except StoreFault DeleteResult} (h : Obeys (.delete key precondition) s reply t) :
    (s.get? key).isSome = true ∧ refuses? precondition (s.get? key) = none ∧ reply = .ok .deleted ∧ t = s.remove key ∨
      s.get? key = none ∧ reply = .ok .notFound ∧ t = s ∨
      (s.get? key).isSome = true ∧ ∃ current, refuses? precondition (s.get? key) = some current ∧
        reply = .ok (.conflict current) ∧ t = s := by
  obtain ⟨rfl, rfl⟩ := h
  unfold delete
  cases s.get? key with
  | none => exact .inr (.inl ⟨rfl, rfl, rfl⟩)
  | some object =>
    cases hrefused : refuses? precondition (some object) with
    | none =>
      simp only [hrefused]
      exact .inl ⟨rfl, trivial, trivial, trivial⟩
    | some current =>
      simp only [hrefused]
      exact .inr (.inr ⟨rfl, current, rfl, rfl, trivial⟩)

/-- The version of the object under a key, if there is one. -/
def Store.version? (store : Store) (key : String) : Option String := (store.head? key).map (·.version)

/-- **What is as it was seen may be written**, as long as generations have 63 bits. -/
theorem Store.not_refuses?_of_version? {store : Store} {key : String} (hroom : store.nextGeneration ≤ 2 ^ 63) :
    refuses? (.unchanged (store.version? key)) (store.get? key) = none := by
  unfold version? head?
  cases hobject : store.get? key with
  | none => rfl
  | some object => exact if_pos (isVersion_decimal (Nat.lt_of_lt_of_le (generation_lt hobject) hroom))

/-- What a handle on a lock is used for. -/
inductive LockUse where
  | read
  | claim (jobId : String)
  | recordError (message : String)
  | release

/-- A use of a handle: what it returns, and the handle after it. -/
abbrev LockProgram := CloudProgram (Except Failure (Option LockBody) × TableLock)

namespace LockUse

/-- A use that returns nothing but whether it failed. -/
def silent (p : CloudProgram (Except Failure Unit × TableLock)) : LockProgram :=
  Program.bind p fun r => .done (r.1.map fun _ => none, r.2)

/-- **What is done for a use.** -/
def program (lock : TableLock) : LockUse → LockProgram
  | .read => lock.read
  | .claim jobId => silent (lock.claim jobId)
  | .recordError message => silent (lock.recordError message)
  | .release => silent lock.release

/-- What a use is to leave in the lock. -/
def text? (lock : TableLock) : LockUse → Option String
  | .claim jobId => some jobId
  | .recordError message => some (lock.errorText message)
  | _ => none

/-- What was last read from the lock, after a use that returned this. -/
def told (before : Option LockBody) : LockUse → Except Failure (Option LockBody) → Option LockBody
  | .read, .ok body => body
  | _, _ => before

end LockUse

/-- **What a handle remembers of the lock.** -/
structure Memory where
  /-- The version, or that there was none. -/
  version : Option String := none
  /-- How many calls had been made by everybody when it was so. -/
  since : Nat := 0
  /-- The body that was read, if it was. -/
  body : Option Octets := none
  /-- The version that a read under way has seen, and when. -/
  looked : Option (String × Nat) := none

/-- **What is remembered after a call**: the last read that was completed, or the last write that took place. -/
def Memory.after (m : Memory) (time : Nat) : (c : CloudCall) → c.Reply → Memory
  | .head _, .ok none => { since := time }
  | .head _, .ok (some seen) => { m with looked := some (seen.version, time) }
  | .get _, .ok body =>
    match m.looked with
    | some (version, time) => { version := some version, since := time, body := some body }
    | none => m
  | .get _, .error fault => if fault.isNotFound then { since := time } else { m with looked := none }
  | .put .., .ok (.written version) => { version := some version, since := time }
  | .delete .., .ok .deleted => { since := time }
  | .delete .., .ok .notFound => { since := time }
  | _, _ => m

/-- A handle in use. -/
structure Handle where
  lock : TableLock
  memory : Memory
  /-- What was last read through it. -/
  told : Option LockBody
  /-- What it is used for, and what is left to do for that. -/
  use : Option (LockUse × LockProgram)

/-- A store, all calls that were made on it, and handles on a lock in it. -/
structure Handles where
  store : Store
  past : List Deed
  handles : List Handle

namespace Handles

/-- **What happens next**: a handle is made, used, makes its next call, is done with its use or left off in the middle of
it, or others make a call. -/
inductive Step (tablePrefix : String) : Handles → Handles → Prop where
  | join {hs : Handles} (jobPrefix : String) :
    Step tablePrefix hs { hs with handles := hs.handles ++ [⟨.ofTable tablePrefix jobPrefix, {}, none, none⟩] }
  | start {hs : Handles} {i : Nat} {handle : Handle} (use : LockUse) (hhandle : hs.handles[i]? = some handle)
      (hidle : handle.use = none) :
    Step tablePrefix hs { hs with
      handles := hs.handles.set i { handle with use := some (use, use.program handle.lock) } }
  | call {hs : Handles} {i : Nat} {handle : Handle} {use : LockUse} {c : CloudCall} {next : c.Reply → LockProgram}
      {reply : c.Reply} {store : Store} (hhandle : hs.handles[i]? = some handle)
      (huse : handle.use = some (use, Program.ask c next)) (h : hs.store.Obeys c reply store) :
    Step tablePrefix hs ⟨store, hs.past ++ [⟨hs.store, c, reply⟩], hs.handles.set i { handle with
      memory := handle.memory.after (hs.past.length + 1) c reply
      use := some (use, next reply) }⟩
  | finish {hs : Handles} {i : Nat} {handle : Handle} {use : LockUse} {result : Except Failure (Option LockBody)}
      {lock : TableLock} (hhandle : hs.handles[i]? = some handle)
      (huse : handle.use = some (use, Program.done (result, lock))) :
    Step tablePrefix hs { hs with handles := hs.handles.set i { handle with
      lock := lock
      told := use.told handle.told result
      use := none } }
  | abandon {hs : Handles} {i : Nat} {handle : Handle} {use : LockUse} {c : CloudCall} {next : c.Reply → LockProgram}
      (hhandle : hs.handles[i]? = some handle) (huse : handle.use = some (use, Program.ask c next)) :
    Step tablePrefix hs { hs with handles := hs.handles.set i { handle with
      memory := { handle.memory with looked := none }
      use := none } }
  | others {hs : Handles} {c : CloudCall} {reply : c.Reply} {store : Store} (h : hs.store.Obeys c reply store) :
    Step tablePrefix hs ⟨store, hs.past ++ [⟨hs.store, c, reply⟩], hs.handles⟩

/-! ## What is remembered -/

/-- **What is remembered was true then**: if the object has the version still, nobody has touched it since, and it has
the body that was read. -/
def Kept (key : String) (store : Store) (past : List Deed) (version : Option String) (since : Nat)
    (body : Option Octets) : Prop :=
  ∀ v, version = some v → ∃ generation, v = decimal generation ∧ generation < store.nextGeneration ∧
    ∀ object, store.get? key = some object → object.generation = generation →
      (∀ deed ∈ past.drop since, ¬ deed.Touches key) ∧ ∀ octets, body = some octets → object.body = octets

section Kept

variable {key : String} {store store' : Store} {past : List Deed} {version : Option String} {since : Nat}
  {body : Option Octets} {c : CloudCall} {reply : c.Reply}

theorem kept_none : Kept key store past none since body := fun _ h => by cases h

/-- What is remembered stays true, whoever makes a call. -/
theorem Kept.step (h : Kept key store past version since body) (hobeys : store.Obeys c reply store') :
    Kept key store' (past ++ [⟨store, c, reply⟩]) version since body := by
  intro v hv
  obtain ⟨generation, hdecimal, hlt, hobject⟩ := h v hv
  obtain ⟨hnext, hcases⟩ := hobeys.cases key
  refine ⟨generation, hdecimal, Nat.lt_of_lt_of_le hlt hnext, fun object hget hgeneration => ?_⟩
  rcases hcases with ⟨huntouched, hsame⟩ | hnew
  · obtain ⟨hpast, hbody⟩ := hobject object (hsame ▸ hget) hgeneration
    refine ⟨fun deed hdeed => ?_, hbody⟩
    rw [List.drop_append, List.mem_append] at hdeed
    rcases hdeed with hdeed | hdeed
    · exact hpast deed hdeed
    · rw [List.mem_singleton.1 (List.mem_of_mem_drop hdeed)]
      exact huntouched
  · -- an object that was touched is of a generation that nobody remembers
    have := hnew object hget
    omega

theorem kept_now {generation : Nat} (h : generation < store.nextGeneration) (hsince : past.length ≤ since) :
    Kept key store past (some (decimal generation)) since none := by
  intro v hv
  cases hv
  refine ⟨generation, rfl, h, fun object _ _ => ⟨?_, nofun⟩⟩
  rw [List.drop_eq_nil_of_le hsince]
  exact fun _ h => absurd h List.not_mem_nil

/-- The body that is read under a version is the one it has. -/
theorem Kept.read (h : Kept key store past version since none) {object : StoredObject}
    (hget : store.get? key = some object) : Kept key store past version since (some object.body) := by
  intro v hv
  obtain ⟨generation, hdecimal, hlt, hobject⟩ := h v hv
  refine ⟨generation, hdecimal, hlt, fun found hfound hgeneration => ⟨(hobject found hfound hgeneration).1, ?_⟩⟩
  rintro octets ⟨⟩
  rw [hget, Option.some.injEq] at hfound
  rw [hfound]

/-- **What a write replaces is what is remembered.** -/
theorem Kept.current (h : Kept key store past version since body)
    (hfree : Store.refuses? (.unchanged version) (store.get? key) = none) : store.version? key = version ∧
      ∀ object, store.get? key = some object → (∀ deed ∈ past.drop since, ¬ deed.Touches key) ∧
        ∀ octets, body = some octets → object.body = octets := by
  unfold Store.version? Store.head?
  obtain ⟨hnone, habsent⟩ | ⟨v, object, rfl, hobject, hv⟩ := Store.eq_of_refuses?_unchanged hfree
  · rw [habsent, hnone]
    exact ⟨rfl, fun _ e => by cases e⟩
  · obtain ⟨generation, rfl, -, hkept⟩ := h v rfl
    obtain rfl := Store.eq_of_isVersion_decimal hv
    rw [hobject]
    exact ⟨rfl, fun _ e => by cases e; exact hkept object hobject rfl⟩

end Kept
end Handles

/-! ## What a handle is about to do -/

namespace Handle

/-- The handle has the version that is remembered, and what was read says what was told. -/
structure Aware (handle : Handle) : Prop where
  version : handle.lock.version = handle.memory.version
  told : ∀ octets, handle.memory.body = some octets → handle.told = LockBody.ofOctets? handle.lock.jobPrefix octets

/-- A read has seen the version and is about to get the body. -/
def Looking (handle : Handle) (program : LockProgram) : Prop :=
  ∃ version time next, handle.memory.looked = some (version, time) ∧
    program = Program.ask (I := Cloud) (.get handle.lock.key) next ∧
    (∀ octets, next (.ok octets) =
      .done (.ok (LockBody.ofOctets? handle.lock.jobPrefix octets), handle.lock.seen (some version))) ∧
    ∀ fault, fault.isNotFound = true → next (.error fault) = .done (.ok none, handle.lock.seen none)

/-- The use is over, and the handle after it has the version that is remembered. -/
def Over (handle : Handle) (use : LockUse) (program : LockProgram) : Prop :=
  ∃ result, program = .done (result, handle.lock.seen handle.memory.version) ∧
    ∀ octets, handle.memory.body = some octets →
      use.told handle.told result = LockBody.ofOctets? handle.lock.jobPrefix octets

/-- **Where a handle stands in its use.** -/
def Stands (handle : Handle) : Prop :=
  match handle.use with
  | none => handle.Aware
  | some (use, program) =>
    handle.Aware ∧ program = use.program handle.lock ∨
      handle.Aware ∧ use = .read ∧ handle.Looking program ∨ handle.Over use program

end Handle

namespace LockUse

/-- What a use comes to when the lock was to be written. -/
def afterPut (lock : TableLock) : Except StoreFault PutResult → LockProgram
  | .error fault => .done (.error (.store fault), lock)
  | .ok (.written version) => .done (.ok none, lock.seen (some version))
  | .ok (.conflict current) => .done (.error (lock.conflict current), lock)

/-- What a use comes to when the lock was to be deleted. -/
def afterDelete (lock : TableLock) : Except StoreFault DeleteResult → LockProgram
  | .error fault => .done (.error (.store fault), lock)
  | .ok (.conflict current) => .done (.error (lock.conflict current), lock)
  | .ok _ => .done (.ok none, lock.seen none)

theorem program_write (lock : TableLock) (text : String) : silent (lock.write text) =
    Program.ask (I := Cloud) (.put lock.key (Utf8.encode text) (.unchanged lock.version)) (afterPut lock) := by
  show Program.ask _ _ = Program.ask _ _
  congr
  funext reply
  match reply with
  | .error _ => rfl
  | .ok (.written _) => rfl
  | .ok (.conflict _) => rfl

theorem program_release {lock : TableLock} {version : String} (h : lock.version = some version) :
    silent lock.release =
      Program.ask (I := Cloud) (.delete lock.key (.version version)) (afterDelete lock) := by
  unfold TableLock.release
  rw [h]
  show Program.ask _ _ = Program.ask _ _
  congr
  funext reply
  match reply with
  | .error _ => rfl
  | .ok .deleted => rfl
  | .ok .notFound => rfl
  | .ok (.conflict _) => rfl

theorem program_of_text {lock : TableLock} {use : LockUse} {text : String} (h : use.text? lock = some text) :
    use.program lock =
      Program.ask (I := Cloud) (.put lock.key (Utf8.encode text) (.unchanged lock.version)) (afterPut lock) := by
  cases use with
  | claim | recordError =>
    cases h
    exact program_write lock _
  | read | release => cases h

/-- **A use that is not a read makes one call at most**: it writes the lock, or deletes it, if it is as remembered, and
to give up a lock that was not there takes no call. -/
theorem program_cases (lock : TableLock) {use : LockUse} (h : use ≠ .read) :
    (∃ text, use.text? lock = some text) ∨
      (∃ version, use = .release ∧ lock.version = some version ∧ use.program lock =
        Program.ask (I := Cloud) (.delete lock.key (.version version)) (afterDelete lock)) ∨
      use = .release ∧ lock.version = none ∧ use.program lock = .done (.ok none, lock) := by
  cases use with
  | read => exact absurd rfl h
  | claim | recordError => exact .inl ⟨_, rfl⟩
  | release =>
    cases hversion : lock.version with
    | some version => exact .inr (.inl ⟨version, rfl, rfl, program_release hversion⟩)
    | none =>
      refine .inr (.inr ⟨rfl, rfl, ?_⟩)
      unfold program TableLock.release
      rw [hversion]
      rfl

end LockUse

/-- What is remembered by a handle on the lock of a table is true, and it stands somewhere in its use. -/
structure Handle.Good (tablePrefix : String) (store : Store) (past : List Deed) (handle : Handle) : Prop where
  key : handle.lock.key = TableLock.keyOf tablePrefix
  kept : Handles.Kept (TableLock.keyOf tablePrefix) store past handle.memory.version handle.memory.since
    handle.memory.body
  looked : ∀ version time, handle.memory.looked = some (version, time) →
    Handles.Kept (TableLock.keyOf tablePrefix) store past (some version) time none
  stands : handle.Stands

namespace Handle.Good

open Handles (Kept kept_none kept_now)

variable {tablePrefix : String} {store store' : Store} {past : List Deed} {handle : Handle} {use : LockUse}
  {c : CloudCall} {reply : c.Reply}

theorem others (h : handle.Good tablePrefix store past) (hobeys : store.Obeys c reply store') :
    handle.Good tablePrefix store' (past ++ [⟨store, c, reply⟩]) where
  key := h.key
  kept := h.kept.step hobeys
  looked version time e := (h.looked version time e).step hobeys
  stands := h.stands

theorem of_over {memory : Memory} {program : LockProgram} (hkey : handle.lock.key = TableLock.keyOf tablePrefix)
    (hkept : Kept (TableLock.keyOf tablePrefix) store past memory.version memory.since memory.body)
    (hlooked : memory.looked = none)
    (hover : Handle.Over { handle with memory := memory, use := some (use, program) } use program) :
    Handle.Good tablePrefix store past { handle with memory := memory, use := some (use, program) } where
  key := hkey
  kept := hkept
  looked version time e := by rw [hlooked] at e; cases e
  stands := .inr (.inr hover)

theorem head (h : handle.Good tablePrefix store past) (haware : handle.Aware)
    {reply : Except StoreFault (Option ObjectInfo)} (hobeys : store.Obeys (.head handle.lock.key) reply store')
    {next : Except StoreFault (Option ObjectInfo) → LockProgram}
    (hnext : handle.lock.read = Program.ask (I := Cloud) (.head handle.lock.key) next) :
    Handle.Good tablePrefix store' (past ++ [⟨store, .head handle.lock.key, reply⟩]) { handle with
      memory := handle.memory.after (past.length + 1) (.head handle.lock.key) reply
      use := some (.read, next reply) } := by
  have hothers := h.others hobeys
  obtain ⟨hreply, rfl⟩ := hobeys
  cases hnext
  obtain rfl := Option.some.inj hreply
  cases hseen : store'.head? handle.lock.key with
  | none => exact of_over h.key kept_none rfl ⟨.ok none, rfl, nofun⟩
  | some seen =>
    obtain ⟨object, hobject, rfl⟩ := Option.map_eq_some_iff.1 hseen
    rw [hseen] at hothers
    refine ⟨h.key, hothers.kept, ?_, .inr (.inl ⟨⟨haware.version, haware.told⟩, rfl, ?_⟩)⟩
    · rintro version time ⟨⟩
      exact kept_now (Store.generation_lt hobject) (by rw [List.length_append]; exact Nat.le_refl _)
    · exact ⟨_, _, _, rfl, rfl, fun _ => rfl, fun fault hfault => if_pos hfault⟩

theorem get (h : handle.Good tablePrefix store past) {reply : Except StoreFault Octets}
    {next : Except StoreFault Octets → LockProgram}
    (hlooking : handle.Looking (Program.ask (I := Cloud) (.get handle.lock.key) next))
    (hobeys : store.Obeys (.get handle.lock.key) reply store') :
    Handle.Good tablePrefix store' (past ++ [⟨store, .get handle.lock.key, reply⟩]) { handle with
      memory := handle.memory.after (past.length + 1) (.get handle.lock.key) reply
      use := some (.read, next reply) } := by
  have hothers := h.others hobeys
  obtain ⟨hreply, rfl⟩ := hobeys
  obtain ⟨version, time, _, hlooked, ⟨⟩, hbody, hgone⟩ := hlooking
  cases hobject : store'.get? handle.lock.key with
  | none =>
    simp only [Store.reply?, hobject, Option.some.injEq] at hreply
    subst hreply
    refine of_over h.key ?_ rfl ⟨.ok none, hgone _ rfl, fun _ e => by cases e⟩
    exact kept_none
  | some object =>
    simp only [Store.reply?, hobject, Option.some.injEq] at hreply
    subst hreply
    simp only [Memory.after, hlooked]
    refine of_over h.key ?_ rfl ⟨_, hbody _, ?_⟩
    · exact (hothers.looked version time hlooked).read (h.key ▸ hobject)
    · intro octets e
      rw [← Option.some.inj e, LockUse.told]

theorem of_failure (h : handle.Good tablePrefix store past) (haware : handle.Aware) (huse : use ≠ .read)
    (failure : Failure) :
    Handle.Good tablePrefix store past { handle with use := some (use, .done (.error failure, handle.lock)) } := by
  refine ⟨h.key, h.kept, h.looked, .inr (.inr ⟨.error failure, ?_, fun octets e => ?_⟩)⟩
  · rw [← haware.version]
    rfl
  · cases use with
    | read => exact absurd rfl huse
    | _ => exact haware.told octets e

theorem put (h : handle.Good tablePrefix store past) (haware : handle.Aware) (huse : use ≠ .read) {body : Octets}
    {reply : Except StoreFault PutResult}
    (hobeys : store.Obeys (.put handle.lock.key body (.unchanged handle.lock.version)) reply store') :
    Handle.Good tablePrefix store' (past ++ [⟨store, .put handle.lock.key body (.unchanged handle.lock.version), reply⟩])
      { handle with
        memory := handle.memory.after (past.length + 1) (.put handle.lock.key body (.unchanged handle.lock.version)) reply
        use := some (use, LockUse.afterPut handle.lock reply) } := by
  have hothers := h.others hobeys
  obtain ⟨now, rfl, rfl⟩ := hobeys
  obtain ⟨current, hput⟩ | ⟨-, hput⟩ := store.put_cases handle.lock.key body (.unchanged handle.lock.version) now
  · rw [hput] at hothers ⊢
    exact hothers.of_failure haware huse (handle.lock.conflict current)
  · rw [hput]
    refine of_over h.key ?_ rfl ⟨.ok none, rfl, nofun⟩
    exact kept_now (Nat.lt_succ_self _) (by rw [List.length_append]; exact Nat.le_refl _)

theorem delete (h : handle.Good tablePrefix store past) (haware : handle.Aware) {version : String}
    {reply : Except StoreFault DeleteResult}
    (hobeys : store.Obeys (.delete handle.lock.key (.version version)) reply store') :
    Handle.Good tablePrefix store' (past ++ [⟨store, .delete handle.lock.key (.version version), reply⟩])
      { handle with
        memory := handle.memory.after (past.length + 1) (.delete handle.lock.key (.version version)) reply
        use := some (.release, LockUse.afterDelete handle.lock reply) } := by
  have hothers := h.others hobeys
  obtain ⟨rfl, rfl⟩ := hobeys
  cases hresult : (store.delete handle.lock.key (.version version)).1 with
  | conflict current =>
    rw [hresult] at hothers
    exact hothers.of_failure haware LockUse.noConfusion (handle.lock.conflict current)
  | _ => exact of_over h.key kept_none rfl ⟨.ok none, rfl, nofun⟩

/-- **A handle that makes its next call goes on to remember what is true.** -/
theorem call {next : c.Reply → LockProgram} (h : handle.Good tablePrefix store past)
    (huse : handle.use = some (use, Program.ask c next)) (hobeys : store.Obeys c reply store') :
    Handle.Good tablePrefix store' (past ++ [⟨store, c, reply⟩]) { handle with
      memory := handle.memory.after (past.length + 1) c reply
      use := some (use, next reply) } := by
  have hstands := h.stands
  rw [Handle.Stands, huse] at hstands
  rcases hstands with ⟨haware, hprogram⟩ | ⟨-, rfl, hlooking⟩ | ⟨_, hdone, -⟩
  · by_cases hread : use = .read
    · subst hread
      cases hprogram
      exact h.head haware hobeys rfl
    · rcases LockUse.program_cases handle.lock hread with ⟨_, htext⟩ | ⟨_, rfl, -, hdelete⟩ | ⟨-, -, hnothing⟩
      · cases hprogram.trans (LockUse.program_of_text htext)
        exact h.put haware hread hobeys
      · cases hprogram.trans hdelete
        exact h.delete haware hobeys
      · cases hprogram.trans hnothing
  · obtain ⟨_, _, _, _, hget, _⟩ := id hlooking
    cases hget
    exact h.get hlooking hobeys
  · cases hdone

theorem finish {result : Except Failure (Option LockBody)} {lock : TableLock} (h : handle.Good tablePrefix store past)
    (huse : handle.use = some (use, Program.done (result, lock))) :
    Handle.Good tablePrefix store past { handle with
      lock := lock
      told := use.told handle.told result
      use := none } := by
  have hstands := h.stands
  rw [Handle.Stands, huse] at hstands
  rcases hstands with ⟨haware, hprogram⟩ | ⟨-, -, _, _, _, -, hget, -⟩ | ⟨_, hdone, htold⟩
  · have hread : use ≠ .read := by
      rintro rfl
      cases hprogram
    rcases LockUse.program_cases handle.lock hread with ⟨_, htext⟩ | ⟨_, -, -, hdelete⟩ | ⟨rfl, -, hnothing⟩
    · cases hprogram.trans (LockUse.program_of_text htext)
    · cases hprogram.trans hdelete
    · cases hprogram.trans hnothing
      exact ⟨h.key, h.kept, h.looked, haware.version, haware.told⟩
  · cases hget
  · cases hdone
    exact ⟨h.key, h.kept, h.looked, rfl, htold⟩

/-- A handle whose use is left off remembers what it did before. -/
theorem abandon {next : c.Reply → LockProgram} (h : handle.Good tablePrefix store past)
    (huse : handle.use = some (use, Program.ask c next)) :
    Handle.Good tablePrefix store past { handle with
      memory := { handle.memory with looked := none }
      use := none } := by
  have hstands := h.stands
  rw [Handle.Stands, huse] at hstands
  refine ⟨h.key, h.kept, nofun, ?_⟩
  rcases hstands with ⟨haware, -⟩ | ⟨haware, -⟩ | ⟨_, hdone, -⟩
  · exact ⟨haware.version, haware.told⟩
  · exact ⟨haware.version, haware.told⟩
  · cases hdone

/-- The call of a use that is not a read is the one that it was started with. -/
theorem aware_of_ask {next : c.Reply → LockProgram} (h : handle.Good tablePrefix store past)
    (huse : handle.use = some (use, Program.ask c next)) (hread : use ≠ .read) :
    handle.Aware ∧ Program.ask c next = use.program handle.lock := by
  have hstands := h.stands
  rw [Handle.Stands, huse] at hstands
  rcases hstands with hstarted | ⟨-, rfl, -⟩ | ⟨_, hdone, -⟩
  · exact hstarted
  · exact absurd rfl hread
  · cases hdone

/-- A handle that is about to be used has the version that is remembered. -/
theorem version_eq (h : handle.Good tablePrefix store past)
    (huse : handle.use = some (.release, LockUse.release.program handle.lock)) :
    handle.lock.version = handle.memory.version := by
  have hstands := h.stands
  rw [Handle.Stands, huse] at hstands
  rcases hstands with ⟨haware, -⟩ | ⟨-, hread, -⟩ | ⟨_, hdone, -⟩
  · exact haware.version
  · cases hread
  · obtain ⟨_, htext⟩ | ⟨_, -, -, hdelete⟩ | ⟨-, -, hnothing⟩ :=
      LockUse.program_cases handle.lock (LockUse.noConfusion : LockUse.release ≠ .read)
    · cases htext
    · cases hdelete.symm.trans hdone
    · exact congrArg TableLock.version (Prod.mk.inj (Program.done.inj (hnothing.symm.trans hdone))).2

end Handle.Good

namespace Handles

variable {tablePrefix : String} {hs hs' : Handles}

/-- What every handle remembers is true. -/
def Sound (tablePrefix : String) (hs : Handles) : Prop :=
  ∀ handle ∈ hs.handles, handle.Good tablePrefix hs.store hs.past

theorem Sound.set (h : hs.Sound tablePrefix) {i : Nat} {handle : Handle}
    (hgood : handle.Good tablePrefix hs.store hs.past) :
    Sound tablePrefix { hs with handles := hs.handles.set i handle } := by
  intro other hother
  rcases List.mem_or_eq_of_mem_set hother with hother | rfl
  · exact h other hother
  · exact hgood

/-- **Whatever happens, what every handle remembers stays true.** -/
theorem Sound.step (h : hs.Sound tablePrefix) (hstep : Step tablePrefix hs hs') : hs'.Sound tablePrefix := by
  cases hstep with
  | join jobPrefix =>
    intro handle hhandle
    rcases List.mem_append.1 hhandle with hhandle | hhandle
    · exact h handle hhandle
    · rw [List.mem_singleton.1 hhandle]
      exact ⟨rfl, kept_none, nofun, rfl, nofun⟩
  | start use hhandle hidle =>
    have hgood := h _ (List.mem_of_getElem? hhandle)
    have haware := hgood.stands
    rw [Handle.Stands, hidle] at haware
    exact h.set ⟨hgood.key, hgood.kept, hgood.looked, .inl ⟨⟨haware.version, haware.told⟩, rfl⟩⟩
  | call hhandle huse hobeys =>
    intro other hother
    rcases List.mem_or_eq_of_mem_set hother with hother | rfl
    · exact (h other hother).others hobeys
    · exact (h _ (List.mem_of_getElem? hhandle)).call huse hobeys
  | finish hhandle huse => exact h.set ((h _ (List.mem_of_getElem? hhandle)).finish huse)
  | abandon hhandle huse => exact h.set ((h _ (List.mem_of_getElem? hhandle)).abandon huse)
  | others hobeys => exact fun handle hhandle => (h handle hhandle).others hobeys

theorem Sound.steps (h : hs.Sound tablePrefix) (hsteps : Relation.ReflTransGen (Step tablePrefix) hs hs') :
    hs'.Sound tablePrefix := by
  induction hsteps with
  | refl => exact h
  | tail _ hstep ih => exact ih.step hstep

/-- Handles that are made from now on have nothing wrong to remember. -/
theorem sound_of_nil (h : hs.handles = []) : hs.Sound tablePrefix := by
  rw [Sound, h]
  exact fun _ h => absurd h List.not_mem_nil

end Handles

/-! ## What a use comes to -/

namespace Handle

variable {tablePrefix : String} {hs : Handles} {handle : Handle} {store : Store}

/-- **The lock is as the handle remembers it**: it has the version, or is not there; nobody has touched it since then, and a
body that was read is the one it has. -/
structure UpToDate (tablePrefix : String) (hs : Handles) (handle : Handle) : Prop where
  version : hs.store.version? (TableLock.keyOf tablePrefix) = handle.memory.version
  untouched : (hs.store.get? (TableLock.keyOf tablePrefix)).isSome = true →
    ∀ deed ∈ hs.past.drop handle.memory.since, ¬ deed.Touches (TableLock.keyOf tablePrefix)
  body : ∀ object octets, hs.store.get? (TableLock.keyOf tablePrefix) = some object → handle.memory.body = some octets →
    object.body = octets ∧ handle.told = LockBody.ofOctets? handle.lock.jobPrefix octets

/-- **The lock is not as remembered**: nothing is changed, and the use ends in a conflict. -/
structure Outdated (tablePrefix : String) (hs : Handles) (handle : Handle) (store : Store) (rest : LockProgram) : Prop where
  other : hs.store.nextGeneration ≤ 2 ^ 63 → hs.store.version? (TableLock.keyOf tablePrefix) ≠ handle.memory.version
  unchanged : store = hs.store
  conflict : ∃ reason, rest = .done (.error (.lockConflict (TableLock.keyOf tablePrefix) reason), handle.lock)

theorem Good.upToDate (h : handle.Good tablePrefix hs.store hs.past) (haware : handle.Aware)
    (hfree : Store.refuses? (.unchanged handle.memory.version) (hs.store.get? (TableLock.keyOf tablePrefix)) = none) :
    handle.UpToDate tablePrefix hs := by
  obtain ⟨hversion, hobject⟩ := h.kept.current hfree
  refine ⟨hversion, fun hthere => ?_, fun object octets hget e => ?_⟩
  · obtain ⟨object, hget⟩ := Option.isSome_iff_exists.1 hthere
    exact (hobject object hget).1
  · exact ⟨(hobject object hget).2 octets e, haware.told octets e⟩

theorem other_of_refuses? {current : String} (h : Store.refuses? (.unchanged handle.memory.version)
      (hs.store.get? (TableLock.keyOf tablePrefix)) = some current) (hroom : hs.store.nextGeneration ≤ 2 ^ 63) :
    hs.store.version? (TableLock.keyOf tablePrefix) ≠ handle.memory.version := by
  intro hversion
  have hfree : Store.refuses? _ (hs.store.get? (TableLock.keyOf tablePrefix)) = none :=
    Store.not_refuses?_of_version? hroom
  rw [hversion, h] at hfree
  cases hfree

theorem Good.ends_put (h : handle.Good tablePrefix hs.store hs.past) (haware : handle.Aware) {body : Octets}
    {reply : Except StoreFault PutResult} (hobeys : hs.store.Obeys
      (.put (TableLock.keyOf tablePrefix) body (.unchanged handle.memory.version)) reply store) :
    handle.UpToDate tablePrefix hs ∧ (∃ now, store = hs.store.write (TableLock.keyOf tablePrefix) body now) ∧
        LockUse.afterPut handle.lock reply =
          .done (.ok none, handle.lock.seen (some (decimal hs.store.nextGeneration))) ∨
      handle.Outdated tablePrefix hs store (LockUse.afterPut handle.lock reply) := by
  obtain ⟨hfree, rfl, hstore⟩ | ⟨current, hrefused, rfl, hstore⟩ := hobeys.put_cases
  · exact .inl ⟨h.upToDate haware hfree, hstore, rfl⟩
  · exact .inr ⟨other_of_refuses? hrefused, hstore, _, by rw [← h.key]; rfl⟩

theorem Good.ends_delete (h : handle.Good tablePrefix hs.store hs.past) (haware : handle.Aware) {version : String}
    (hversion : handle.memory.version = some version) {reply : Except StoreFault DeleteResult}
    (hobeys : hs.store.Obeys (.delete (TableLock.keyOf tablePrefix) (.version version)) reply store) :
    handle.UpToDate tablePrefix hs ∧ store = hs.store.remove (TableLock.keyOf tablePrefix) ∧
        LockUse.afterDelete handle.lock reply = .done (.ok none, handle.lock.seen none) ∨
      hs.store.get? (TableLock.keyOf tablePrefix) = none ∧ store = hs.store ∧
        LockUse.afterDelete handle.lock reply = .done (.ok none, handle.lock.seen none) ∨
      (hs.store.get? (TableLock.keyOf tablePrefix)).isSome = true ∧
        handle.Outdated tablePrefix hs store (LockUse.afterDelete handle.lock reply) := by
  have hunchanged : Precondition.version version = .unchanged handle.memory.version := by
    rw [hversion]
    rfl
  rw [hunchanged] at hobeys
  obtain ⟨-, hfree, rfl, hstore⟩ | ⟨hgone, rfl, hstore⟩ | ⟨hthere, current, hrefused, rfl, hstore⟩ := hobeys.delete_cases
  · exact .inl ⟨h.upToDate haware hfree, hstore, rfl⟩
  · exact .inr (.inl ⟨hgone, hstore, rfl⟩)
  · exact .inr (.inr ⟨hthere, other_of_refuses? hrefused, hstore, _, by rw [← h.key]; rfl⟩)

end Handle

namespace Handles

variable {tablePrefix : String} {hs : Handles}

/-- **A handle that has lost the lock does not overwrite it.**  A claim or a failure makes one call: where the lock is as the
handle remembers it, the text replaces it, and otherwise nothing is changed and the use ends in a conflict.  So does a
release, which deletes the lock; but it succeeds as well if the lock is gone, and without a call if the handle remembers
none. -/
theorem use_comes_to {start : Handles} (hnew : start.handles = [])
    (hsteps : Relation.ReflTransGen (Step tablePrefix) start hs) {i : Nat} {handle : Handle} {use : LockUse}
    {program : LockProgram} (hhandle : hs.handles[i]? = some handle) (huse : handle.use = some (use, program)) :
    let key := TableLock.keyOf tablePrefix
    (use ≠ .read → ∀ c next, program = Program.ask c next → program = use.program handle.lock) ∧
    (program = use.program handle.lock →
      (∀ text, use.text? handle.lock = some text → ∃ next,
        program = Program.ask (I := Cloud) (.put key (Utf8.encode text) (.unchanged handle.memory.version)) next ∧
        ∀ reply store,
          hs.store.Obeys (.put key (Utf8.encode text) (.unchanged handle.memory.version)) reply store →
          handle.UpToDate tablePrefix hs ∧ (∃ now, store = hs.store.write key (Utf8.encode text) now) ∧
              next reply = .done (.ok none, handle.lock.seen (some (decimal hs.store.nextGeneration))) ∨
            handle.Outdated tablePrefix hs store (next reply)) ∧
      (use = .release →
        (handle.memory.version = none → program = .done (.ok none, handle.lock)) ∧
        ∀ version, handle.memory.version = some version → ∃ next,
          program = Program.ask (I := Cloud) (.delete key (.version version)) next ∧
          ∀ reply store, hs.store.Obeys (.delete key (.version version)) reply store →
            handle.UpToDate tablePrefix hs ∧ store = hs.store.remove key ∧
                next reply = .done (.ok none, handle.lock.seen none) ∨
              hs.store.get? key = none ∧ store = hs.store ∧
                next reply = .done (.ok none, handle.lock.seen none) ∨
              (hs.store.get? key).isSome = true ∧ handle.Outdated tablePrefix hs store (next reply))) := by
  have hgood := (sound_of_nil hnew).steps hsteps handle (List.mem_of_getElem? hhandle)
  refine ⟨fun hread c next e => ?_, fun hstarted => ⟨fun text htext => ?_, fun hrelease => ?_⟩⟩
  · subst e
    exact (hgood.aware_of_ask huse hread).2
  · have hread : use ≠ .read := by
      rintro rfl
      cases htext
    rw [hstarted, LockUse.program_of_text htext] at huse
    obtain ⟨haware, -⟩ := hgood.aware_of_ask huse hread
    refine ⟨LockUse.afterPut handle.lock, ?_, fun reply store hobeys => hgood.ends_put haware hobeys⟩
    rw [hstarted, LockUse.program_of_text htext, hgood.key, haware.version]
  · subst hrelease
    rw [hstarted] at huse
    have hversion := hgood.version_eq huse
    obtain ⟨_, htext⟩ | ⟨v, -, hv, hdelete⟩ | ⟨-, hv, hnothing⟩ :=
      LockUse.program_cases handle.lock (LockUse.noConfusion : LockUse.release ≠ .read)
    · cases htext
    · rw [← hversion, hv]
      refine ⟨fun e => (by cases e), fun version e => ?_⟩
      cases e
      rw [hdelete] at huse
      obtain ⟨haware, -⟩ := hgood.aware_of_ask huse LockUse.noConfusion
      refine ⟨LockUse.afterDelete handle.lock, ?_, fun reply store hobeys =>
        hgood.ends_delete haware (hversion.symm.trans hv) hobeys⟩
      rw [hstarted, hdelete, hgood.key]
    · rw [← hversion, hv]
      exact ⟨fun _ => hstarted.trans hnothing, fun _ e => by cases e⟩

/-- A lock that is held. -/
def held : Store := Store.empty.write (TableLock.keyOf "d/t") (Utf8.encode "j1") (.ofNanos 1)

theorem use_comes_to_held : ∃ hs handle next store,
    Relation.ReflTransGen (Step "d/t") ⟨held, [], []⟩ hs ∧ hs.handles[0]? = some handle ∧
      handle.use = some (.claim "j2",
        Program.ask (I := Cloud) (.put (TableLock.keyOf "d/t") (Utf8.encode "j2") (.version "1")) next) ∧
      hs.store.Obeys (.put (TableLock.keyOf "d/t") (Utf8.encode "j2") (.version "1")) (.ok (.written "2")) store ∧
      handle.UpToDate "d/t" hs ∧ store.version? (TableLock.keyOf "d/t") = some "2" ∧
      ∃ object, hs.store.get? (TableLock.keyOf "d/t") = some object ∧ object.body = Utf8.encode "j1" ∧
        handle.told = some (.job "j1") := by
  let lock := TableLock.keyOf "d/t"
  have hhead : held.reply? (.head lock) =
      some (.ok (some (StoredObject.info ⟨Utf8.encode "j1", 1, .ofNanos 1⟩ lock))) := by
    decide +kernel
  have hget : held.reply? (.get lock) = some (.ok (Utf8.encode "j1")) := by decide +kernel
  have hobject : held.get? lock = some ⟨Utf8.encode "j1", 1, .ofNanos 1⟩ := by decide +kernel
  -- the handle reads the lock in two calls and is then used to claim it
  have hstart : Relation.ReflTransGen (Step "d/t") ⟨held, [], []⟩ _ := .tail .refl (.join "j")
  have hlooked := (hstart.tail (.start (i := 0) .read rfl rfl)).tail (.call (i := 0) rfl rfl ⟨hhead, rfl⟩)
  have hread := (hlooked.tail (.call (i := 0) rfl rfl ⟨hget, rfl⟩)).tail (.finish (i := 0) rfl rfl)
  have hclaims := hread.tail (.start (i := 0) (.claim "j2") rfl rfl)
  have hobeys : held.Obeys (.put lock (Utf8.encode "j2") (.version "1")) (.ok (.written "2"))
      (held.put lock (Utf8.encode "j2") (.version "1") (.ofNanos 2)).2 := ⟨.ofNanos 2, by decide +kernel, rfl⟩
  have hversion : (held.put lock (Utf8.encode "j2") (.version "1") (.ofNanos 2)).2.version? lock = some "2" := by
    decide +kernel
  refine ⟨_, _, _, _, hclaims, rfl, rfl, hobeys, ?_, hversion, _, hobject, rfl, by decide +kernel⟩
  obtain ⟨next, -, hends⟩ := ((use_comes_to rfl hclaims (i := 0) rfl rfl).2 rfl).1 "j2" rfl
  obtain ⟨hcurrent, -⟩ | hrefused := hends _ _ hobeys
  · exact hcurrent
  · exact absurd rfl (hrefused.other (by decide +kernel))

/-- **To give up a lock that somebody else has deleted succeeds**, though the lock has changed since it was claimed; and so
does to give up a lock that somebody else holds, if it was never read. -/
theorem release_of_vanished :
    (∃ hs handle next, Relation.ReflTransGen (Step "d/t") ⟨.empty, [], []⟩ hs ∧ hs.handles[0]? = some handle ∧
      handle.use = some (.release,
        Program.ask (I := Cloud) (.delete (TableLock.keyOf "d/t") (.version "1")) next) ∧
      (∃ deed ∈ hs.past.drop handle.memory.since, deed.Touches (TableLock.keyOf "d/t")) ∧
      hs.store.Obeys (.delete (TableLock.keyOf "d/t") (.version "1")) (.ok .notFound) hs.store ∧
      next (.ok .notFound) = .done (.ok none, handle.lock.seen none)) ∧
    ∃ hs handle, Relation.ReflTransGen (Step "d/t") ⟨held, [], []⟩ hs ∧ hs.handles[0]? = some handle ∧
      handle.use = some (.release, .done (.ok none, handle.lock)) ∧ hs.store = held := by
  let lock := TableLock.keyOf "d/t"
  constructor
  · have hwritten : Store.empty.Obeys (.put lock (Utf8.encode "j1") .absent) (.ok (.written "1")) held :=
      ⟨.ofNanos 1, by decide +kernel, rfl⟩
    have hdeleted : held.Obeys (.delete lock .always) (.ok .deleted) (held.delete lock .always).2 :=
      ⟨by decide +kernel, rfl⟩
    have hgone : (held.delete lock .always).2.delete lock (.version "1") = (.notFound, (held.delete lock .always).2) := by
      rw [Store.delete, (by decide +kernel : (held.delete lock .always).2.get? lock = none)]
    have hstart : Relation.ReflTransGen (Step "d/t") ⟨.empty, [], []⟩ _ := .tail .refl (.join "j")
    have hclaims := (hstart.tail (.start (i := 0) (.claim "j1") rfl rfl)).tail (.call (i := 0) rfl rfl hwritten)
    have hclaimed := hclaims.tail (.finish (i := 0) rfl rfl)
    have hreleases := (hclaimed.tail (.others hdeleted)).tail (.start (i := 0) .release rfl rfl)
    exact ⟨_, _, _, hreleases, rfl, rfl, ⟨_, List.mem_singleton.2 rfl, rfl⟩,
      ⟨congrArg (Except.ok ·.1) hgone.symm, congrArg (·.2) hgone.symm⟩, rfl⟩
  · exact ⟨_, _, (Relation.ReflTransGen.refl.tail (.join "j")).tail (.start (i := 0) .release rfl rfl), rfl, rfl, rfl⟩

end Handles
end Intake
