import Intake.Proofs.Scene
/-!
# Conduct — a subscriber that is the only one makes its moves and no others

Others act while the subscriber sleeps, and leave the lock alone; between two sleeps the subscriber sees the store as it
has left it.  So what it has read of the lock, of the backlog and of the marker's files is still so when it acts on it
(`Conduct.outline`).
-/
namespace Intake

/-- The call neither changes anything nor lets time pass; it may draw a suffix. -/
def CloudCall.IsLooking : CloudCall → Prop
  | .put .. | .delete .. | .submit _ | .sleep _ => False
  | _ => True

theorem CloudCall.IsReading.isLooking {c : CloudCall} (h : c.IsReading) : c.IsLooking := by
  cases c <;> trivial

namespace Scene

/-- Nobody has touched the lock. -/
structure LockKept (tablePrefix : String) (s t : Scene) : Prop where
  lock : t.site.store.get? (TableLock.keyOf tablePrefix) = s.site.store.get? (TableLock.keyOf tablePrefix)
  log : s.log <+: t.log

/-- Nobody has changed anything, and nobody else has acted. -/
structure Looks (s t : Scene) : Prop where
  store : t.site.store = s.site.store
  accepted : t.site.accepted = s.site.accepted
  drawn : ∀ suffix ∈ s.site.drawn, suffix ∈ t.site.drawn
  log : ∃ more, t.log = s.log ++ more ∧ ∀ e ∈ more, e.IsCall

theorem LockKept.refl (tablePrefix : String) (s : Scene) : LockKept tablePrefix s s := ⟨rfl, List.prefix_rfl⟩

theorem LockKept.trans {tablePrefix : String} {s t u : Scene} (h : LockKept tablePrefix s t)
    (h' : LockKept tablePrefix t u) : LockKept tablePrefix s u :=
  ⟨h'.lock.trans h.lock, h.log.trans h'.log⟩

theorem Looks.refl (s : Scene) : Looks s s := ⟨rfl, rfl, fun _ h => h, [], by simp, by simp⟩

theorem Looks.trans {s t u : Scene} (h : Looks s t) (h' : Looks t u) : Looks s u := by
  refine ⟨h'.store.trans h.store, h'.accepted.trans h.accepted, fun x hx => h'.drawn x (h.drawn x hx), ?_⟩
  obtain ⟨more, hlog, hcalls⟩ := h.log
  obtain ⟨more', hlog', hcalls'⟩ := h'.log
  refine ⟨more ++ more', by rw [hlog', hlog, List.append_assoc], fun e he => ?_⟩
  exact (List.mem_append.1 he).elim (hcalls e) (hcalls' e)

theorem Looks.isPrefix {s t : Scene} (h : Looks s t) : s.log <+: t.log := by
  obtain ⟨more, hlog, -⟩ := h.log
  exact ⟨more, hlog.symm⟩

theorem EndedWell.mono {id : String} {log log' : List Event} (h : EndedWell id log) (hlog : log <+: log') :
    EndedWell id log' := by
  obtain ⟨status, hmem, hdone⟩ := h
  exact ⟨status, hlog.subset hmem, hdone⟩

section Stable

variable {ctx : Context} {tablePrefix : String} {s t : Scene}

theorem LockKept.lock_eq (h : LockKept tablePrefix s t) : t.lock ctx tablePrefix = s.lock ctx tablePrefix := by
  rw [Scene.lock, Store.lockBody, h.lock, ← Store.lockBody, ← Scene.lock]

theorem Looks.lock_eq (h : Looks s t) : t.lock ctx tablePrefix = s.lock ctx tablePrefix := by
  rw [Scene.lock, h.store, ← Scene.lock]

theorem Looks.turn {pointer suffix : String} {part : Nat} (h : Looks s t)
    (hturn : Turn ctx tablePrefix s pointer suffix part) : Turn ctx tablePrefix t pointer suffix part := by
  cases hturn with
  | first hdrawn hfresh hlock =>
    refine .first (h.drawn _ hdrawn) (by rw [h.accepted]; exact hfresh) ?_
    rw [h.lock_eq]
    exact hlock.imp_right fun ⟨id, hid, hended, hfor⟩ => ⟨id, hid, hended.mono h.isPrefix, hfor⟩
  | next hlock hended hsplit => exact .next (h.lock_eq.trans hlock) (hended.mono h.isPrefix) hsplit

theorem Looks.gathered {marker : String} {store : Store} (h : Looks s t) (hg : Gathered marker store s.log) :
    Gathered marker store t.log := by
  obtain ⟨before, after, hlog, hcalls⟩ := hg
  obtain ⟨more, hlog', hcalls'⟩ := h.log
  refine ⟨before, after ++ more, by rw [hlog', hlog]; simp, fun e he => ?_⟩
  exact (List.mem_append.1 he).elim (hcalls e) (hcalls' e)

/-- Nothing is in the way of the first pointer: there is no lock, or it names an ended job of another marker. -/
def IsOpen (ctx : Context) (tablePrefix : String) (s : Scene) : Prop :=
  s.lock ctx tablePrefix = none ∨ ∃ id, s.lock ctx tablePrefix = some (.job id) ∧ EndedWell id s.log ∧
    ∀ q, (s.site.store.pointers tablePrefix).head? = some q →
      JobId.isFor id ctx.settings.jobPrefix (Backlog.markerFor q) = false

theorem Looks.isOpen (h : Looks s t) (ho : IsOpen ctx tablePrefix s) : IsOpen ctx tablePrefix t := by
  unfold IsOpen
  rw [h.lock_eq, h.store]
  exact ho.imp_right fun ⟨id, hid, hended, hfor⟩ => ⟨id, hid, hended.mono h.isPrefix, hfor⟩

end Stable

/-- **The surroundings of a subscriber that is the only one**: others act when it sleeps, and leave the lock alone. -/
def alone (ctx : Context) (tablePrefix : String) (roster : Roster ctx.settings.jobPrefix) : Surroundings Cloud Scene where
  admits c s := Guard ctx tablePrefix c s
  answers c s reply s' := ∃ t, (t = s ∨ (∃ span, c = .sleep span) ∧ LockKept tablePrefix s t) ∧
    Basic tablePrefix roster t ∧ Replies c t reply s'

end Scene

namespace Conduct

open Scene

variable {ctx : Context} {tablePrefix : String} {roster : Roster ctx.settings.jobPrefix} {s s' : Scene} {α : Type}

theorem looks_of_replies {c : CloudCall} {reply : c.Reply} (hc : c.IsLooking) (h : Replies c s reply s') : Looks s s' := by
  have hlog : ∃ more, s'.log = s.log ++ more ∧ ∀ e ∈ more, e.IsCall :=
    ⟨_, h.log, fun e he => by rw [List.mem_singleton.1 he]; trivial⟩
  cases c with
  | put | delete | submit | sleep => exact hc.elim
  | freshId =>
    obtain ⟨-, -, hsite⟩ := h.site
    refine ⟨by rw [hsite], by rw [hsite], fun x hx => ?_, hlog⟩
    rw [hsite]
    exact List.mem_cons_of_mem _ hx
  | _ =>
    have hsite := h.site.eq_of_isPassive trivial
    exact ⟨by rw [hsite], by rw [hsite], fun x hx => by rw [hsite]; exact hx, hlog⟩

/-- A call that lets no time pass finds the scene as it was. -/
theorem answers_looking {c : CloudCall} {reply : c.Reply} (h : (alone ctx tablePrefix roster).answers c s reply s')
    (hc : ∀ span, c ≠ .sleep span) : Basic tablePrefix roster s ∧ Replies c s reply s' := by
  obtain ⟨t, rfl | ⟨⟨span, hspan⟩, -⟩, hbasic, hreplies⟩ := h
  · exact ⟨hbasic, hreplies⟩
  · exact absurd hspan (hc span)

theorem answers_passive {c : CloudCall} {reply : c.Reply} (hc : c.IsPassive)
    (h : (alone ctx tablePrefix roster).answers c s reply s') : LockKept tablePrefix s s' := by
  obtain ⟨t, ht, -, hreplies⟩ := h
  have hkept : LockKept tablePrefix s t := by
    rcases ht with rfl | ⟨-, h⟩
    · exact .refl _ _
    · exact h
  exact hkept.trans ⟨by rw [hreplies.site.eq_of_isPassive hc], ⟨_, hreplies.log.symm⟩⟩

theorem admits_looking {c : CloudCall} (hc : c.IsLooking) : (alone ctx tablePrefix roster).admits c s := by
  cases c <;> trivial

theorem ne_sleep {c : CloudCall} (hc : c.IsLooking) (span : Duration) : c ≠ .sleep span := by
  rintro rfl
  exact hc

theorem keeps_looking {x : Invocation α} (hx : x.Only CloudCall.IsLooking) :
    x.Keeps (alone ctx tablePrefix roster) (fun _ t => Looks s t) s :=
  hx.keeps (fun _ _ hc _ => admits_looking hc)
    (fun _ _ _ _ hc hs hr => hs.trans (looks_of_replies hc (answers_looking hr (ne_sleep hc)).2)) (.refl s)

theorem keeps_waiting {x : Invocation α} (hx : x.Only CloudCall.IsPassive) :
    x.Keeps (alone ctx tablePrefix roster) (fun _ t => LockKept tablePrefix s t) s :=
  hx.keeps (fun c _ hc _ => by cases c <;> trivial)
    (fun _ _ _ _ hc hs hr => hs.trans (answers_passive hc hr)) (.refl _ s)

/-- What is read is what the store says. -/
theorem keeps_reads {x : Invocation α} (hx : x.Reads) :
    x.Keeps (alone ctx tablePrefix roster) (fun a t => Looks s t ∧ s.site.store.gives x = some a) s := by
  refine hx.keeps (fun _ _ hc _ => admits_looking hc.isLooking) (fun c t reply t' hc ht hr => ?_) (.refl s)
  have hreplies := (answers_looking hr (ne_sleep hc.isLooking)).2
  exact ⟨ht.trans (looks_of_replies hc.isLooking hreplies), ht.store ▸ hreplies.site.reply?_eq hc⟩

theorem keeps_next : (Backlog.next tablePrefix).Keeps (alone ctx tablePrefix roster)
    (fun q t => Looks s t ∧ (t.site.store.pointers tablePrefix).head? = q) s := by
  refine (keeps_reads (Backlog.reads_next _)).mono fun q t h => ⟨h.1, ?_⟩
  rw [Store.gives_next] at h
  rw [h.1.store]
  exact Option.some.inj h.2

/-! ## The lock -/

theorem keeps_readLock {version : Option String} :
    Leased.readLock.Keeps (alone ctx tablePrefix roster) (.ofTable tablePrefix ctx.settings.jobPrefix)
      (fun body _ t => t.lock ctx tablePrefix = body) version s := by
  have hhead : ∀ {seen s₁}, (alone ctx tablePrefix roster).answers (.head (TableLock.keyOf tablePrefix)) s
      (.ok seen) s₁ → s₁.site = s.site ∧ s.site.store.head? (TableLock.keyOf tablePrefix) = seen := by
    intro seen s₁ hr
    obtain ⟨hsite, hreply | ⟨fault, e, -⟩⟩ := (answers_looking hr (ne_sleep trivial)).2.site
    · exact ⟨hsite, Except.ok.inj (Option.some.inj hreply)⟩
    · cases e
  refine Leased.keeps_readLock (admits_looking trivial) ?_ (fun _ _ _ => admits_looking trivial) ?_ ?_
  · intro s₁ hr
    obtain ⟨hsite, hnone⟩ := hhead hr
    rw [Scene.lock, hsite, Store.lockBody, Option.map_eq_none_iff.1 hnone]
    rfl
  · intro seen s₁ body s₂ hr hr'
    obtain ⟨hsite, hsome⟩ := hhead hr
    obtain ⟨object, hobject, -⟩ := Option.map_eq_some_iff.1 hsome
    obtain ⟨hsite', hreply | ⟨fault, e, -⟩⟩ := (answers_looking hr' (ne_sleep trivial)).2.site
    · simp only [Store.reply?, hsite] at hreply
      rw [show s.site.store.get? (TableLock.ofTable tablePrefix ctx.settings.jobPrefix).key = some object
        from hobject] at hreply
      rw [Scene.lock, hsite', hsite, Store.lockBody, hobject, Option.bind_some,
        Except.ok.inj (Option.some.inj hreply)]
      rfl
    · cases e
  · -- the object was there a moment ago, and nobody has acted since
    intro seen s₁ fault s₂ hr hr' hfault
    obtain ⟨hsite, hsome⟩ := hhead hr
    obtain ⟨object, hobject, -⟩ := Option.map_eq_some_iff.1 hsome
    obtain ⟨-, hreply | ⟨fault', e, hfalse⟩⟩ := (answers_looking hr' (ne_sleep trivial)).2.site
    · simp only [Store.reply?, hsite] at hreply
      rw [show s.site.store.get? (TableLock.ofTable tablePrefix ctx.settings.jobPrefix).key = some object
        from hobject] at hreply
      cases Option.some.inj hreply
    · cases e
      rw [hfault] at hfalse
      cases hfalse

/-- The suffix of a part that is due was drawn. -/
theorem drawn_of_turn (hbasic : Basic tablePrefix roster s) {pointer suffix : String} {part : Nat}
    (hsuffix : JobId.IsSuffix suffix) (hturn : Turn ctx tablePrefix s pointer suffix part) : suffix ∈ s.site.drawn := by
  cases hturn with
  | first hdrawn => exact hdrawn
  | next hlock hended hsplit =>
    obtain ⟨status, hmem, -⟩ := hended
    obtain ⟨job, hjob, hid⟩ := List.mem_map.1 (hbasic.seen _ status hmem)
    exact hbasic.drawn job hjob _ suffix hsuffix (by rw [hid, hsplit])

/-- **The lock is taken for the job that is due**, which may then be submitted. -/
theorem keeps_claimLock {version : Option String} {pointer suffix : String} {plan : Plan} {part : Nat} {job : Job}
    (hdue : DueJob ctx tablePrefix s.site.store pointer suffix plan part job)
    (hturn : Turn ctx tablePrefix s pointer suffix part)
    (hgathered : Gathered (Backlog.markerFor pointer) s.site.store s.log) :
    (Leased.claimLock job.id).Keeps (alone ctx tablePrefix roster) (.ofTable tablePrefix ctx.settings.jobPrefix)
      (fun locked _ t => locked = true ∧ Announced ctx tablePrefix t job) version s := by
  refine Leased.keeps_claimLock (.inl ⟨rfl, .inr ⟨pointer, suffix, plan, part, job, rfl, hdue, hturn⟩⟩) ?_
    fun _ _ _ => trivial
  intro v s' hr
  obtain ⟨hbasic, hreplies⟩ := answers_looking hr nofun
  refine ⟨rfl, ?_⟩
  obtain ⟨-, hunwritten⟩ | ⟨-, -, now, hsite⟩ := hreplies.site.put_cases
  · exact absurd rfl (hunwritten v)
  · refine ⟨s.site.store, now, pointer, suffix, plan, part, by rw [hsite]; rfl, hdue, ?_, ?_⟩
    · rw [hsite]
      exact drawn_of_turn hbasic hdue.hex hturn
    · obtain ⟨before, after, hlog, hcalls⟩ := hgathered
      refine ⟨before, after ++ _, by rw [hreplies.log, hlog, List.append_assoc, List.cons_append], fun e he => ?_⟩
      rcases List.mem_append.1 he with he | he
      · exact hcalls e he
      · rw [List.mem_singleton.1 he]
        trivial

theorem keeps_releaseLock {version : Option String} (h : Drained ctx tablePrefix s) :
    Leased.releaseLock.Keeps (alone ctx tablePrefix roster) (.ofTable tablePrefix ctx.settings.jobPrefix)
      (fun _ _ _ => True) version s :=
  Leased.keeps_releaseLock (fun _ => trivial) (fun _ _ => .inl ⟨rfl, h⟩) (fun _ _ _ _ _ _ => trivial)

/-! ## Jobs -/

theorem keeps_job {id : String} : (Invocation.job id).Keeps (alone ctx tablePrefix roster)
    (fun status t => LockKept tablePrefix s t ∧
      ∀ known, status = some known → Event.call (.job id) (.ok (some known)) ∈ t.log) s := by
  refine Invocation.keeps_warehouse ⟨admits_looking trivial, fun r s' hr status e => ?_⟩
  refine ⟨answers_passive (c := .job id) trivial hr, ?_⟩
  rintro known rfl
  rw [(answers_looking hr (ne_sleep trivial)).2.log, e]
  exact List.mem_append_right _ (List.mem_singleton.2 rfl)

theorem keeps_draw : (Invocation.ask .freshId).Keeps (alone ctx tablePrefix roster) (fun suffix t => Looks s t ∧
    JobId.IsSuffix suffix ∧ suffix ∈ t.site.drawn ∧ ∀ job ∈ t.site.accepted, ∀ marker,
      (JobId.splitPart job.id).1 ≠ JobId.make ctx.settings.jobPrefix marker suffix) s := by
  refine Invocation.keeps_ask (admits_looking trivial) fun suffix s' hr => ?_
  obtain ⟨hbasic, hreplies⟩ := answers_looking hr nofun
  obtain ⟨hhex, hnew, hsite⟩ := hreplies.site
  refine ⟨looks_of_replies (c := .freshId) trivial hreplies, hhex, by rw [hsite]; exact List.mem_cons_self, ?_⟩
  rw [hsite]
  exact fun job hjob marker hid => hnew (hbasic.drawn job hjob marker suffix hhex hid)

theorem keeps_gather (marker : String) : (Submission.gather ctx.bucket (Submission.dataPrefix marker)
    ctx.layout.successName (Submission.limits ctx.settings)).Keeps (alone ctx tablePrefix roster)
      (fun _ t => Gathered marker s.site.store t.log) s := by
  have hlist : (Invocation.list (Submission.dataPrefix marker) (some "/")).Keeps (alone ctx tablePrefix roster)
      (fun _ t => Gathered marker s.site.store t.log) s := by
    refine Invocation.keeps_store ⟨admits_looking trivial, fun r s' hr listing e => ?_⟩
    have hreplies := (answers_looking hr (ne_sleep trivial)).2
    obtain ⟨-, hreply | ⟨fault, e', -⟩⟩ := hreplies.site
    · rw [← Option.some.inj hreply] at hreplies
      exact ⟨s.log, [], hreplies.log, by simp⟩
    · rw [e'] at e
      cases e
  refine hlist.bind fun listing t h => ?_
  split
  · exact Invocation.keeps_throw _
  · exact Invocation.keeps_pure h

/-- Planning lists the files of the marker. -/
theorem keeps_plan (marker : String) : (Submission.plan ctx marker).Keeps (alone ctx tablePrefix roster)
    (fun plan t => (Looks s t ∧ s.site.store.gives (Submission.plan ctx marker) = some plan) ∧
      Gathered marker s.site.store t.log) s := by
  refine (keeps_reads (Submission.reads_plan ctx marker)).and ?_
  have hrest : ∀ {β : Type} {x : Invocation β} {t : Scene}, x.Reads → Gathered marker s.site.store t.log →
      x.Keeps (alone ctx tablePrefix roster) (fun _ t => Gathered marker s.site.store t.log) t :=
    fun hx hg => (keeps_looking (hx.only.mono fun _ hc => hc.isLooking)).mono fun _ _ hl => hl.gathered hg
  refine (keeps_looking (Invocation.only_ofExcept _)).bind fun destination t ht => ?_
  rw [← ht.store]
  refine (keeps_gather marker).bind fun batches u hg => ?_
  rw [ht.store] at hg ⊢
  exact hrest (Submission.reads_planFor ..) hg

/-! ## The backlog -/

/-- The job of one marker is none of another. -/
theorem isFor_eq_false {id q q' : String} (hq : roster.has q) (hq' : roster.has q') (hne : q' ≠ q)
    (hfor : JobId.isFor id ctx.settings.jobPrefix (Backlog.markerFor q) = true) :
    JobId.isFor id ctx.settings.jobPrefix (Backlog.markerFor q') = false := by
  rw [← Bool.not_eq_true]
  exact fun hfor' => hne (roster.distinct hq' hq (JobId.body_eq_of_isFor hfor' hfor))

/-- After the first pointer was taken away, nothing is in the way of the next one. -/
theorem keeps_pop {pointer : String} (h : Finished ctx tablePrefix s pointer) :
    (Backlog.pop tablePrefix).Keeps (alone ctx tablePrefix roster) (fun _ t => IsOpen ctx tablePrefix t) s := by
  obtain ⟨hhead, id, hlock, hended, hfor, hlast⟩ := h
  refine keeps_next.bind fun first t ht => ?_
  obtain ⟨hlooks, rfl⟩ := ht
  have hhead' : (t.site.store.pointers tablePrefix).head? = some pointer := by rw [hlooks.store]; exact hhead
  have hlock' : t.lock ctx tablePrefix = some (.job id) := hlooks.lock_eq.trans hlock
  have hended' : EndedWell id t.log := hended.mono hlooks.isPrefix
  rw [hhead']
  simp only
  have hdelete : (Invocation.delete pointer .always).Keeps (alone ctx tablePrefix roster)
      (fun _ u => IsOpen ctx tablePrefix u) t := by
    refine Invocation.keeps_store ⟨.inr (.inl ⟨hhead', id, hlock', hended', hfor, hlast⟩), fun r u hr result e => ?_⟩
    obtain ⟨hbasic, hreplies⟩ := answers_looking hr nofun
    obtain ⟨rest, hpointers⟩ := List.head?_eq_some_iff.1 hhead'
    have hmem : pointer ∈ t.site.store.pointers tablePrefix := List.mem_of_head? hhead'
    have hsite := hreplies.site.delete_always (Store.isSome_of_mem_pointers hmem) e
    have hne := Backlog.ne_lock_of_startsWith (Store.startsWith_of_mem_pointers hmem)
    refine .inr ⟨id, ?_, hended'.mono ⟨_, hreplies.log.symm⟩, fun q hq => ?_⟩
    · rw [Scene.lock, hsite, Store.lockBody_remove_of_ne _ _ hne]
      exact hlock'
    · rw [hsite, Store.pointers_remove_head hpointers] at hq
      have hq : q ∈ rest := List.mem_of_head? hq
      have hnot : pointer ∉ rest := (List.nodup_cons.1 (hpointers ▸ t.site.store.pointers_nodup tablePrefix)).1
      have hq' : q ∈ t.site.store.pointers tablePrefix := by rw [hpointers]; exact List.mem_cons_of_mem _ hq
      exact isFor_eq_false (hbasic.listed pointer hmem) (hbasic.listed q hq') (fun he => hnot (he ▸ hq)) hfor
  exact hdelete.bind fun _ u hu => Invocation.keeps_pure hu

theorem keeps_free {x : Invocation α} (hx : x.Only (CloudCall.IsFree tablePrefix)) :
    x.Keeps (alone ctx tablePrefix roster) (fun _ _ => True) s := by
  refine Invocation.Only.keeps (fun c t hc _ => ?_) (fun _ _ _ _ _ _ _ => trivial) hx trivial
  cases c with
  | put => exact .inr hc
  | delete => exact .inr (.inr hc)
  | submit => exact hc.elim
  | _ => trivial

theorem keeps_trigger : (Invocation.head (BackfillMarker.keyOf tablePrefix)).Keeps (alone ctx tablePrefix roster)
    (fun found s => ∀ object, found = some object →
      (Claim.takeObject object).Keeps (alone ctx tablePrefix roster) (fun _ _ => True) s) s := by
  refine Invocation.keeps_store ⟨admits_looking trivial, fun r s' hr found e => ?_⟩
  rintro object rfl
  exact keeps_free (Claim.free_takeObject ((answers_looking hr (ne_sleep trivial)).2.site.key_of_head e))

/-! ## A subscriber -/

theorem keeps_head {fact : Scene → Prop} (key : String) (hfact : ∀ {t u}, Looks t u → fact t → fact u) (hs : fact s) :
    (Invocation.head key).Keeps (alone ctx tablePrefix roster) (fun _ t => fact t) s :=
  (keeps_reads (Invocation.reads_head key)).mono fun _ _ h => hfact h.1 hs

/-- **What a subscriber relies on when it is the only one**: that the scene is as it has seen it. -/
def outline (ctx : Context) (tablePrefix : String) (roster : Roster ctx.settings.jobPrefix)
    (hlead : JobId.IsLead ctx.settings.jobPrefix) : Outline (alone ctx tablePrefix roster) ctx tablePrefix where
  Seen body _ s := s.lock ctx tablePrefix = body
  Told id status _ s := s.lock ctx tablePrefix = some (.job id) ∧
    Event.call (.job id) (.ok (some status)) ∈ s.log ∧ status.isDone = true
  Over id _ s := s.lock ctx tablePrefix = some (.job id) ∧ EndedWell id s.log
  First id q _ s := (s.lock ctx tablePrefix = some (.job id) ∧ EndedWell id s.log) ∧
    (s.site.store.pointers tablePrefix).head? = q
  Open _ s := IsOpen ctx tablePrefix s
  Next q _ s := IsOpen ctx tablePrefix s ∧ (s.site.store.pointers tablePrefix).head? = q
  Turn q base part _ s := (s.site.store.pointers tablePrefix).head? = some q ∧ ∃ suffix, JobId.IsSuffix suffix ∧
    base = JobId.make ctx.settings.jobPrefix (Backlog.markerFor q) suffix ∧ Turn ctx tablePrefix s q suffix part
  Planned q base part plan _ s := ((s.site.store.pointers tablePrefix).head? = some q ∧ ∃ suffix,
    JobId.IsSuffix suffix ∧ base = JobId.make ctx.settings.jobPrefix (Backlog.markerFor q) suffix ∧
      Turn ctx tablePrefix s q suffix part) ∧
    s.site.store.gives (Submission.plan ctx (Backlog.markerFor q)) = some plan ∧
    Gathered (Backlog.markerFor q) s.site.store s.log
  Claimed job s := Announced ctx tablePrefix s job
  Mild _ _ := True
  Start _ := True
  posts hx := keeps_free hx.free
  starts hx _ := keeps_free hx.posting.free
  trigger _ := keeps_trigger
  records failure _ _ _ :=
    .inl ⟨rfl, .inl ((TableLock.ofTable tablePrefix ctx.settings.jobPrefix).ofOctets?_errorText hlead.ne_empty failure)⟩
  lasts _ _ _ := trivial
  mildSeen _ := trivial
  mildTurn _ := trivial
  readLock := keeps_readLock
  waits hseen hx := (keeps_waiting hx.passive).mono fun _ _ h => h.lock_eq.trans hseen
  asks hseen := keeps_job.mono fun _ _ h =>
    ⟨h.1.lock_eq.trans hseen, fun known hk hdone => ⟨h.1.lock_eq.trans hseen, h.2 known hk, hdone⟩⟩
  checks htold := (JobWatch.keeps_check fun hx => keeps_waiting hx.passive).mono fun _ _ h =>
    ⟨h.1.lock_eq.trans htold.1, _, h.1.log.subset htold.2.1, htold.2.2, h.2⟩
  looks hover := keeps_next.mono fun _ _ h => ⟨⟨h.1.lock_eq.trans hover.1, hover.2.mono h.1.isPrefix⟩, h.2⟩
  vacant hseen := .inl hseen
  empty hfirst := ⟨.inr ⟨_, hfirst.1.1, hfirst.1.2, by rw [hfirst.2]; nofun⟩, hfirst.2⟩
  other hfirst hfor := ⟨.inr ⟨_, hfirst.1.1, hfirst.1.2, fun _ hq => by
    rw [hfirst.2] at hq
    cases hq
    exact hfor⟩, hfirst.2⟩
  resumes hfirst hfor hsplit _ := by
    obtain ⟨suffix, hsuffix, hbase⟩ := JobId.isFor_iff.1 hfor
    simp only [hsplit] at hbase
    exact ⟨hfirst.2, suffix, hsuffix, hbase, .next hfirst.1.1 hfirst.1.2 (by rw [hsplit, hbase])⟩
  pops hfirst hfor hlast := keeps_pop ⟨hfirst.2, _, hfirst.1.1, hfirst.1.2, hfor, hlast⟩
  counts hopen := (keeps_looking (x := Invocation.count _) (Invocation.only_ask trivial)).mono fun _ _ h => h.isOpen hopen
  times hopen := (keeps_looking (x := Invocation.now) (Invocation.only_ask trivial)).mono fun _ _ h => h.isOpen hopen
  next hopen := keeps_next.mono fun _ _ h => ⟨h.1.isOpen hopen, h.2⟩
  releases hnext := keeps_releaseLock ⟨List.head?_eq_none_iff.1 hnext.2,
    hnext.1.imp_right fun ⟨id, hid, hended, _⟩ => ⟨id, hid, hended⟩⟩
  finds hnext := keeps_head _ (fun h ⟨hopen, hq⟩ => ⟨h.isOpen hopen, by rw [h.store]; exact hq⟩) hnext
  draws hnext := keeps_draw.mono fun suffix t h => by
    obtain ⟨hlooks, hsuffix, hdrawn, hfresh⟩ := h
    refine ⟨by rw [hlooks.store]; exact hnext.2, suffix, hsuffix, rfl, .first hdrawn hfresh ?_⟩
    rw [hlooks.lock_eq]
    exact hnext.1.imp_right fun ⟨id, hid, hended, hfor⟩ => ⟨id, hid, hended.mono hlooks.isPrefix, hfor _ hnext.2⟩
  findsAgain hturn := keeps_head _ (fun h ⟨hq, suffix, hsuffix, hbase, hturn⟩ =>
    ⟨by rw [h.store]; exact hq, suffix, hsuffix, hbase, h.turn hturn⟩) hturn
  plans hturn := (keeps_plan _).mono fun plan t h => by
    obtain ⟨⟨hlooks, hplan⟩, hgathered⟩ := h
    obtain ⟨hq, suffix, hsuffix, hbase, hturn⟩ := hturn
    rw [← hlooks.store] at hq hplan hgathered
    exact ⟨⟨hq, suffix, hsuffix, hbase, hlooks.turn hturn⟩, hplan, hgathered⟩
  claims hplanned hjob := by
    obtain ⟨⟨hq, suffix, hsuffix, rfl, hturn⟩, hplan, hgathered⟩ := hplanned
    exact (keeps_claimLock ⟨hq, hplan, hsuffix, _, hjob, rfl⟩ hturn hgathered).mono fun _ _ _ h => ⟨h.1, h.2, trivial⟩
  submits hannounced := Invocation.keeps_warehouse ⟨hannounced, fun _ _ _ _ _ => trivial⟩

end Conduct
end Intake
