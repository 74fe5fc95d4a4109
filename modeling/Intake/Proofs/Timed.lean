import Intake.Proofs.Clock
import Intake.Proofs.Scene
/-!
# Timed — the sandbox, in which nobody sleeps too long

What a program does there takes no time, but for its sleeps.  So of the store something can be said that holds as long as no
time has passed (`World.Goes`): what was read is still so, and what was written is what is there.  When others have acted,
all that is left is that everything keeps a law.
-/
namespace Intake

namespace World

variable {α : Type} {ids : Nat → String} {limit stop stop' : Duration} {calm : Prop} {law : Law}
  {still still' : Store → Prop} {w v s s' : World} {c : CloudCall}

/-- **The sandbox, in which nobody is to sleep up to a time.** -/
def timed (ids : Nat → String) (limit : Duration) : Surroundings Cloud World where
  admits c w := ∀ span, c = .sleep span → w.elapsed + span < limit
  answers c w reply w' := answerFrom ids c w = (reply, w')

theorem admits_of_isPrompt (h : c.IsPrompt) : (timed ids limit).admits c w := by
  rintro span rfl
  exact h.elim

/-- **What may have happened since then, up to a time.**  As long as no time has passed, something is true of the store.
Where nothing is said about an end, which is what `calm` stands for, only the time counts. -/
structure Goes (calm : Prop) (law : Law) (w : World) (stop : Duration) (still : Store → Prop) (s : World) : Prop where
  later : w.elapsed ≤ s.elapsed
  elapsed : s.elapsed ≤ stop
  lawful : calm → s.Lawful law
  still : calm → s.elapsed = w.elapsed → still s.bucket.store

namespace Goes

theorem refl (h : calm → w.Lawful law) : w.Goes calm law w.elapsed (· = w.bucket.store) w :=
  ⟨Nat.le_refl _, Nat.le_refl _, h, fun _ _ => rfl⟩

theorem mono (h : w.Goes calm law stop still s) (hstop : stop ≤ stop') : w.Goes calm law stop' still s :=
  ⟨h.later, h.elapsed.trans hstop, h.lawful, h.still⟩

theorem imp (h : w.Goes calm law stop still s) (hstill : calm → still s.bucket.store → still' s.bucket.store) :
    w.Goes calm law stop still' s :=
  ⟨h.later, h.elapsed, h.lawful, fun hcalm e => hstill hcalm (h.still hcalm e)⟩

theorem trans (h : w.Goes calm law stop still v) (h' : v.Goes calm law stop' (· = v.bucket.store) s) :
    w.Goes calm law stop' still s := by
  refine ⟨h.later.trans h'.later, h'.elapsed, h'.lawful, fun hcalm e => ?_⟩
  have hv : v.elapsed = w.elapsed := Nat.le_antisymm (e ▸ h'.later) h.later
  rw [h'.still hcalm (e.trans hv.symm)]
  exact h.still hcalm hv

/-- When time has passed, nothing is said of the store. -/
theorem of_lt (h : v.Goes calm law stop still' s) (hlt : w.elapsed < v.elapsed) : w.Goes calm law stop still s :=
  ⟨Nat.le_trans (Nat.le_of_lt hlt) h.later, h.elapsed, h.lawful,
    fun _ e => absurd (Nat.lt_of_lt_of_le hlt h.later) (e ▸ Nat.lt_irrefl _)⟩

theorem answer (h : w.Goes calm law stop still s) {reply : c.Reply}
    (hanswer : (timed ids limit).answers c s reply s') (hc : c.IsPrompt)
    (hput : ∀ key body precondition, c = .put key body precondition → calm → law.writes key body)
    (hstill : still s.bucket.store → still' s'.bucket.store) : w.Goes calm law stop still' s' := by
  have hanswer : answerFrom ids c s = (reply, s') := hanswer
  have helapsed := elapsed_answerFrom ids hc s
  have hlawful := fun hcalm : calm => (h.lawful hcalm).answerFrom ids (c := c) fun key body precondition e =>
    hput key body precondition e hcalm
  rw [hanswer] at helapsed hlawful
  exact ⟨helapsed ▸ h.later, helapsed ▸ h.elapsed, hlawful, fun hcalm e => hstill (h.still hcalm (helapsed ▸ e))⟩

theorem answer_idle (h : w.Goes calm law stop still s) {reply : c.Reply}
    (hanswer : (timed ids limit).answers c s reply s') (hc : c.IsIdle) : w.Goes calm law stop still s' := by
  refine h.answer hanswer hc.isPrompt (fun key body precondition e => ?_) fun hstill => ?_
  · subst e
    exact hc.elim
  · have hstore := store_answerFrom ids hc s
    rw [show answerFrom ids c s = (reply, s') from hanswer] at hstore
    exact hstore ▸ hstill

end Goes
end World

open World Invocation

/-! ## Calls -/

section Calls

variable {α : Type} {ids : Nat → String} {limit stop : Duration} {cut calm : Prop} {law : Law} {still : Store → Prop}
  {w s s' : World} {tablePrefix jobPrefix : String} {version : Option String}

theorem Invocation.Plain.goes {x : Invocation α} (hx : x.Plain CloudCall.IsIdle) (h : w.Goes calm law stop still s) :
    x.Meets (timed ids limit) cut (fun _ => w.Goes calm law stop still) s :=
  hx.meets (fun _ _ hc => admits_of_isPrompt hc.isPrompt) (fun _ _ _ _ hc hs hr => hs.answer_idle hr hc) h

/-- Prompt calls, after which nothing is said. -/
theorem Invocation.Plain.prompts {x : Invocation α} (hx : x.Plain CloudCall.IsPrompt) (s : World) :
    x.Meets (timed ids limit) cut (fun _ _ => True) s :=
  hx.meets (fun _ _ hc => admits_of_isPrompt hc) (fun _ _ _ _ _ _ _ => trivial) trivial

theorem reply_answerFrom (ids : Nat → String) {c : CloudCall} (hc : c.IsReading) (w : World) :
    w.bucket.store.reply? c = some (answerFrom ids c w).1 ∨ c.Failed (answerFrom ids c w).1 := by
  cases c with
  | get key => exact (World.answers_get (w := w) key).2
  | head key => exact (World.answers_head (w := w) key).2
  | list start delimiter => exact (World.answers_list (w := w) start delimiter).2
  | _ => exact hc.elim

/-- **What is read is what the store says**, and goes on saying as long as no time passes. -/
theorem Invocation.Reads.goes {x : Invocation α} (hx : x.Reads) (h : w.Goes calm law stop still s) :
    x.Meets (timed ids limit) cut (fun a s => s.bucket.store.gives x = some a ∧
      w.Goes calm law stop (fun store => still store ∧ store.gives x = some a) s) s := by
  have hkeeps : x.Keeps (timed ids limit) (fun a t => (w.Goes calm law stop still t ∧
      t.bucket.store = s.bucket.store) ∧ s.bucket.store.gives x = some a) s := by
    refine hx.keeps (fun _ _ hc _ => admits_of_isPrompt hc.isIdle.isPrompt) (fun c t reply t' hc ht hr => ?_) ⟨h, rfl⟩
    have hstore := store_answerFrom ids hc.isIdle t
    have hreply := reply_answerFrom ids hc t
    rw [show answerFrom ids c t = (reply, t') from hr] at hstore hreply
    exact ⟨⟨ht.1.answer_idle hr hc.isIdle, hstore.trans ht.2⟩, ht.2 ▸ hreply⟩
  refine (hkeeps.meets hx.run.finishes).mono fun a t ht => ?_
  obtain ⟨⟨hgoes, hstore⟩, hgives⟩ := ht
  rw [← hstore] at hgives
  exact ⟨hgives, hgoes.imp fun _ hstill => ⟨hstill, hgives⟩⟩

theorem meets_now : Invocation.now.Meets (timed ids limit) cut (fun now w' => now = w.elapsed ∧ w' = w) w := by
  refine ⟨admits_of_isPrompt trivial, fun reply w' hr a e => ?_⟩
  cases hr
  cases e
  exact ⟨rfl, rfl⟩

theorem meets_after {span : Duration} (h : calm → w.elapsed + span < clockLimit) :
    (Invocation.after span).Meets (timed ids limit) (¬ calm) (fun t w' => t = w.elapsed + span ∧ w' = w) w := by
  refine meets_now.bind fun now w' hnow => ?_
  obtain ⟨rfl, rfl⟩ := hnow
  exact meets_fitted fun hlate hcalm => hlate (h hcalm)

theorem meets_sleep {span : Duration} (h : w.elapsed + span < limit) (hlawful : calm → w.Lawful law) :
    (Invocation.sleep span).Meets (timed ids limit) cut
      (fun _ w' => (calm → w'.Lawful law) ∧ w'.elapsed = w.elapsed + span) w := by
  refine ⟨fun _ e => by cases e; exact h, fun reply w' hr a e => ?_⟩
  cases hr
  exact ⟨fun hcalm => (hlawful hcalm).answerFrom ids (c := .sleep span) fun _ _ _ e => (by cases e), rfl⟩

theorem meets_job (id : String) : (Invocation.job id).Meets (timed ids limit) cut (fun status w' =>
    (w.warehouse.poll id).1 = status ∧ w' = { w with warehouse := (w.warehouse.poll id).2 }) w := by
  refine ⟨admits_of_isPrompt trivial, fun reply w' hr a e => ?_⟩
  cases hr
  cases e
  exact ⟨rfl, rfl⟩

theorem meets_children (id : String) : (Invocation.children id).Meets (timed ids limit) cut
    (fun children w' => w.warehouse.children id = .ok children ∧ w' = w) w := by
  refine ⟨admits_of_isPrompt trivial, fun reply w' hr a e => ?_⟩
  cases hr
  have he : (w.warehouse.children id).mapError Failure.warehouse = .ok a := e
  cases hchildren : w.warehouse.children id with
  | error fault =>
    rw [hchildren] at he
    cases he
  | ok children =>
    rw [hchildren] at he
    cases he
    exact ⟨rfl, rfl⟩

theorem meets_submit (job : Job) (h : w.Goes calm law stop still s) :
    (Invocation.submit job).Meets (timed ids limit) cut (fun _ => w.Goes calm law stop still) s := by
  refine ⟨admits_of_isPrompt trivial, fun reply s' hr a _ => ?_⟩
  refine h.answer hr trivial (fun _ _ _ e => by cases e) fun hstill => ?_
  cases hr
  exact hstill

theorem meets_freshId (h : w.Goes calm law stop still s) : (Invocation.ask .freshId).Meets (timed ids limit) cut
    (fun suffix s => (∃ n, suffix = ids n) ∧ w.Goes calm law stop still s) s := by
  refine ⟨admits_of_isPrompt trivial, fun reply s' hr a e => ?_⟩
  have hgoes := h.answer_idle hr trivial
  cases hr
  cases e
  exact ⟨⟨_, rfl⟩, hgoes⟩

/-- Nothing has changed in the store, nor in the warehouse, and no time has passed. -/
structure World.Same (w s : World) : Prop where
  store : s.bucket.store = w.bucket.store
  warehouse : s.warehouse = w.warehouse
  elapsed : s.elapsed = w.elapsed

theorem same_of_looking {c : CloudCall} {reply : c.Reply} (hc : c.IsReading) (h : w.Same s)
    (hanswer : (timed ids limit).answers c s reply s') : w.Same s' := by
  have hstore := store_answerFrom ids hc.isIdle s
  have helapsed := elapsed_answerFrom ids hc.isIdle.isPrompt s
  have hwarehouse : (answerFrom ids c s).2.warehouse = s.warehouse := by
    cases c with
    | get | head | list => rfl
    | _ => exact hc.elim
  rw [show answerFrom ids c s = (reply, s') from hanswer] at hstore helapsed hwarehouse
  exact ⟨hstore.trans h.store, hwarehouse.trans h.warehouse, helapsed.trans h.elapsed⟩

/-- **What is read from the lock is what it says.** -/
theorem meets_readLock (jobPrefix tablePrefix : String) (hlawful : calm → w.Lawful law) :
    Leased.readLock.Meets (timed ids limit) cut (.ofTable tablePrefix jobPrefix) (fun body _ s =>
      w.Same s ∧ (calm → s.Lawful law) ∧ w.bucket.store.lockBody jobPrefix tablePrefix = body) version w := by
  have hlooked : ∀ {c : CloudCall} {s reply s'}, c.IsReading → w.Same s ∧ w.Goes calm law w.elapsed (fun _ => True) s →
      (timed ids limit).answers c s reply s' → (w.Same s' ∧ w.Goes calm law w.elapsed (fun _ => True) s') ∧
        (w.bucket.store.reply? c = some reply ∨ c.Failed reply) := by
    intro c s reply s' hc hs hanswer
    have hreply := reply_answerFrom ids hc s
    rw [show answerFrom ids c s = (reply, s') from hanswer, hs.1.store] at hreply
    exact ⟨⟨same_of_looking hc hs.1 hanswer, hs.2.answer_idle hanswer hc.isIdle⟩, hreply⟩
  have hstart : w.Same w ∧ w.Goes calm law w.elapsed (fun _ => True) w :=
    ⟨⟨rfl, rfl, rfl⟩, (Goes.refl hlawful).imp fun _ _ => trivial⟩
  refine (Leased.keeps_readLock (admits_of_isPrompt trivial) (fun s₁ h₁ => ?_) (fun _ _ _ => admits_of_isPrompt trivial)
    (fun seen s₁ body s₂ h₁ h₂ => ?_) fun seen s₁ fault s₂ h₁ h₂ hgone => ?_).meets Leased.finishes_readLock
  · obtain ⟨hs₁, hreply | ⟨fault, e, -⟩⟩ := hlooked (c := .head _) trivial hstart h₁
    · refine ⟨hs₁.1, hs₁.2.lawful, ?_⟩
      have hnone : w.bucket.store.head? (TableLock.keyOf tablePrefix) = none := Except.ok.inj (Option.some.inj hreply)
      rw [Store.lockBody, Option.map_eq_none_iff.1 hnone]
      rfl
    · cases e
  · obtain ⟨hs₁, -⟩ := hlooked (c := .head _) trivial hstart h₁
    obtain ⟨hs₂, hreply | ⟨fault, e, -⟩⟩ := hlooked (c := .get _) trivial hs₁ h₂
    · refine ⟨hs₂.1, hs₂.2.lawful, ?_⟩
      obtain ⟨object, hobject, rfl⟩ := Store.get?_of_reply? hreply
      show w.bucket.store.lockBody jobPrefix tablePrefix = LockBody.ofOctets? jobPrefix object.body
      rw [Store.lockBody, show w.bucket.store.get? (TableLock.keyOf tablePrefix) = some object from hobject,
        Option.bind_some]
    · cases e
  · -- It was there for the first call, and nothing has happened since.
    obtain ⟨hs₁, hreply₁ | ⟨fault', e, -⟩⟩ := hlooked (c := .head _) trivial hstart h₁
    · obtain ⟨hs₂, hreply₂ | ⟨fault', e, hother⟩⟩ := hlooked (c := .get _) trivial hs₁ h₂
      · have hsome : w.bucket.store.head? (TableLock.keyOf tablePrefix) = some seen :=
          Except.ok.inj (Option.some.inj hreply₁)
        obtain ⟨object, hobject, -⟩ := Option.map_eq_some_iff.1 hsome
        simp only [Store.reply?] at hreply₂
        rw [show w.bucket.store.get? (TableLock.ofTable tablePrefix jobPrefix).key = some object from hobject] at hreply₂
        cases hreply₂
      · cases e
        rw [hgone] at hother
        cases hother
    · cases e

/-- The lock is taken. -/
theorem meets_claimLock (name : String) (h : w.Goes calm law stop still s)
    (hname : calm → law.writes (TableLock.keyOf tablePrefix) (Utf8.encode name)) :
    (Leased.claimLock name).Meets (timed ids limit) cut (.ofTable tablePrefix jobPrefix) (fun locked _ s =>
      locked = true ∧ w.Goes calm law stop (fun store => ∃ mid now, still mid ∧
        store = mid.write (TableLock.keyOf tablePrefix) (Utf8.encode name) now) s) version s := by
  have hkeeps : (Leased.claimLock name).Keeps (timed ids limit) (.ofTable tablePrefix jobPrefix) (fun locked _ s =>
      locked = true ∧ w.Goes calm law stop (fun store => ∃ mid now, still mid ∧
        store = mid.write (TableLock.keyOf tablePrefix) (Utf8.encode name) now) s) version s fun _ _ => True := by
    refine Leased.keeps_claimLock (admits_of_isPrompt trivial) (fun v s' hr => ⟨rfl, ?_⟩) fun _ _ _ => trivial
    refine h.answer hr trivial (fun _ _ _ e => by cases e; exact hname) fun hstill => ?_
    have hput := (World.answers_put (w := s) (TableLock.keyOf tablePrefix) (Utf8.encode name) (.unchanged version)).put_cases
    rw [show answer (.put (TableLock.keyOf tablePrefix) (Utf8.encode name) (.unchanged version)) s = (.ok (.written v), s')
      from hr] at hput
    obtain ⟨-, hunwritten⟩ | ⟨-, -, now, hsite⟩ := hput
    · exact absurd rfl (hunwritten v)
    · exact ⟨s.bucket.store, now, hstill, congrArg Site.store hsite⟩
  exact hkeeps.meets (Leased.finishes_claimLock name)

/-- The first pointer is taken away. -/
theorem meets_pop (h : w.Goes calm law stop still s) {pointer : String}
    (hfirst : ∀ store, still store → (store.pointers tablePrefix).head? = some pointer) :
    (Backlog.pop tablePrefix).Meets (timed ids limit) cut (fun _ =>
      w.Goes calm law stop fun store => ∃ mid, still mid ∧ store = mid.remove pointer) s := by
  refine ((Backlog.reads_next tablePrefix).goes h).bind fun first s₁ h₁ => ?_
  obtain ⟨-, hgoes⟩ := h₁
  have hnext : ∀ store : Store, still store ∧ store.gives (Backlog.next tablePrefix) = some first →
      first = some pointer := by
    intro store hstore
    have hgives := hstore.2
    rw [Store.gives_next, Option.some.injEq] at hgives
    exact hgives.symm.trans (hfirst store hstore.1)
  cases first with
  | none => exact meets_pure (hgoes.imp fun _ hstill => absurd (hnext _ hstill) (by simp))
  | some found =>
    have hdelete : (Invocation.delete found .always).Meets (timed ids limit) cut (fun _ =>
        w.Goes calm law stop fun store => ∃ mid, still mid ∧ store = mid.remove pointer) s₁ := by
      refine ⟨admits_of_isPrompt trivial, fun reply s' hr result e => ?_⟩
      refine hgoes.answer hr trivial (fun _ _ _ e => by cases e) fun hstill => ?_
      obtain rfl := Option.some.inj (hnext _ hstill)
      have hthere : (s₁.site.store.get? found).isSome = true :=
        Store.isSome_of_mem_pointers (List.mem_of_head? (hfirst _ hstill.1))
      have hanswers := World.answers_delete (w := s₁) found .always
      rw [show answer (.delete found .always) s₁ = (reply, s') from hr] at hanswers
      have hok : reply = .ok result := by
        cases reply with
        | error fault => cases e
        | ok r =>
          cases e
          rfl
      exact ⟨_, hstill.1, congrArg Site.store (hanswers.delete_always hthere hok)⟩
    exact hdelete.bind fun _ _ hs => meets_pure hs

end Calls
end Intake
