import Intake.Proofs.Marker
import Intake.Proofs.Scene
/-!
# Move — what comes of a subscriber's moves

Whatever is replied to a guarded call, the lock, the backlog and the accepted jobs change in one of six ways
(`move_of_guard`), and no move changes what is planned for a marker (`gives_plan_of_guard`).
-/
namespace Intake
namespace Scene

variable (ctx : Context) (tablePrefix : String)

/-- **What a move changes** of the lock, the backlog and the accepted jobs. -/
inductive Move (s s' : Scene) : Prop where
  | idle (lock : s'.lock ctx tablePrefix = s.lock ctx tablePrefix)
      (pointers : s'.site.store.pointers tablePrefix = s.site.store.pointers tablePrefix)
      (accepted : s'.site.accepted = s.site.accepted)
  | fail {text : String} (lock : s'.lock ctx tablePrefix = some (.manual text))
      (pointers : s'.site.store.pointers tablePrefix = s.site.store.pointers tablePrefix)
      (accepted : s'.site.accepted = s.site.accepted)
  | claim {pointer suffix : String} {plan : Plan} {part : Nat} {job : Job}
      (due : DueJob ctx tablePrefix s.site.store pointer suffix plan part job)
      (turn : Turn ctx tablePrefix s pointer suffix part) (lock : s'.lock ctx tablePrefix = some (.job job.id))
      (pointers : s'.site.store.pointers tablePrefix = s.site.store.pointers tablePrefix)
      (accepted : s'.site.accepted = s.site.accepted)
  | submit {job : Job} (announced : Announced ctx tablePrefix s job) (new : job.id ∉ s.site.ids)
      (store : s'.site.store = s.site.store) (accepted : s'.site.accepted = s.site.accepted ++ [job])
      (log : ∃ reply, s'.log = s.log ++ [.call (.submit job) reply])
  | drain (drained : Drained ctx tablePrefix s) (lock : s'.lock ctx tablePrefix = none)
      (pointers : s'.site.store.pointers tablePrefix = s.site.store.pointers tablePrefix)
      (accepted : s'.site.accepted = s.site.accepted)
  | pop {pointer : String} {rest : List String} (finished : Finished ctx tablePrefix s pointer)
      (before : s.site.store.pointers tablePrefix = pointer :: rest)
      (pointers : s'.site.store.pointers tablePrefix = rest)
      (lock : s'.lock ctx tablePrefix = s.lock ctx tablePrefix) (accepted : s'.site.accepted = s.site.accepted)

variable {ctx tablePrefix} {s s' : Scene} {c : CloudCall} {reply : c.Reply}

theorem Move.of_site_eq (h : s'.site = s.site) : Move ctx tablePrefix s s' :=
  .idle (by rw [lock, h, ← lock]) (by rw [h]) (by rw [h])

theorem DueJob.id_eq {store : Store} {pointer suffix : String} {plan : Plan} {part : Nat} {job : Job}
    (h : DueJob ctx tablePrefix store pointer suffix plan part job) :
    job.id = plan.nameOf (JobId.make ctx.settings.jobPrefix (Backlog.markerFor pointer) suffix) part := by
  obtain ⟨content, -, rfl⟩ := h.isPart
  rfl

/-- The name of a job that is put into the lock is read as such, or as a text set by hand if the prefix was cut. -/
theorem DueJob.ofOctets? (hlead : JobId.IsLead ctx.settings.jobPrefix) {store : Store} {pointer suffix : String} {plan : Plan}
    {part : Nat} {job : Job} (h : DueJob ctx tablePrefix store pointer suffix plan part job) :
    LockBody.ofOctets? ctx.settings.jobPrefix (Utf8.encode job.id) = some (.job job.id) ∨
      LockBody.ofOctets? ctx.settings.jobPrefix (Utf8.encode job.id) = some (.manual job.id) := by
  have hunpadded : Unpadded job.id := by
    rw [h.id_eq]
    exact Plan.unpadded_nameOf (JobId.unpadded_make hlead h.hex) plan
  rw [LockBody.ofOctets?_encode _ hunpadded]
  split
  · exact .inl rfl
  · exact .inr rfl

theorem owns_notMem_folder {key : String} (h : BackfillMarker.Owns tablePrefix key) :
    startsWith (Backlog.folder tablePrefix) key = false := by
  rcases h with rfl | ⟨created, rfl⟩
  · exact Backlog.backfill_notMem_folder tablePrefix
  · exact Backlog.claim_notMem_folder tablePrefix created

theorem move_of_put (hlead : JobId.IsLead ctx.settings.jobPrefix) {key : String} {body : Octets}
    {precondition : Precondition} {reply : Except StoreFault PutResult}
    (hguard : Guard ctx tablePrefix (.put key body precondition) s)
    (h : Replies (.put key body precondition) s reply s') : Move ctx tablePrefix s s' := by
  obtain ⟨hsame, -⟩ | ⟨-, -, now, hsite⟩ := h.site.put_cases
  · exact .of_site_eq hsame
  rcases hguard with ⟨rfl, hbody⟩ | howns
  · have hlock : s'.lock ctx tablePrefix = LockBody.ofOctets? ctx.settings.jobPrefix body := by
      rw [lock, hsite, Store.lockBody_write_self]
    have hpointers : s'.site.store.pointers tablePrefix = s.site.store.pointers tablePrefix := by
      rw [hsite, Store.pointers_write _ _ (Backlog.lock_notMem_folder tablePrefix)]
    rcases hbody with ⟨text, htext⟩ | ⟨pointer, suffix, plan, part, job, rfl, hdue, hturn⟩
    · exact .fail (hlock.trans htext) hpointers (by rw [hsite])
    · rcases hdue.ofOctets? hlead with hread | hread
      · exact .claim hdue hturn (hlock.trans hread) hpointers (by rw [hsite])
      · exact .fail (hlock.trans hread) hpointers (by rw [hsite])
  · refine .idle ?_ ?_ (by rw [hsite])
    · rw [lock, hsite, Store.lockBody_write_of_ne _ _ _ _ howns.ne_lock, ← lock]
    · rw [hsite, Store.pointers_write _ _ (owns_notMem_folder howns)]

theorem move_of_delete {key : String} {precondition : Precondition} {reply : Except StoreFault DeleteResult}
    (hguard : Guard ctx tablePrefix (.delete key precondition) s)
    (h : Replies (.delete key precondition) s reply s') : Move ctx tablePrefix s s' := by
  obtain ⟨hsame, -⟩ | ⟨-, -, -, hsite⟩ := h.site.delete_cases
  · exact .of_site_eq hsame
  rcases hguard with ⟨rfl, hdrained⟩ | hfinished | rfl
  · refine .drain hdrained ?_ ?_ (by rw [hsite])
    · rw [lock, hsite, Store.lockBody_remove_self]
    · rw [hsite, Store.pointers_remove (Backlog.lock_notMem_folder tablePrefix)]
  · obtain ⟨rest, hrest⟩ := List.head?_eq_some_iff.1 hfinished.1
    have hmem := List.mem_of_head? hfinished.1
    refine .pop hfinished hrest ?_ ?_ (by rw [hsite])
    · rw [hsite, Store.pointers_remove_head hrest]
    · have hne := Backlog.ne_lock_of_startsWith (Store.startsWith_of_mem_pointers hmem)
      rw [lock, hsite, Store.lockBody_remove_of_ne _ _ hne, ← lock]
  · refine .idle ?_ ?_ (by rw [hsite])
    · rw [lock, hsite, Store.lockBody_remove_of_ne _ _ (BackfillMarker.keyOf_ne_lock _ _), ← lock]
    · rw [hsite, Store.pointers_remove (Backlog.backfill_notMem_folder tablePrefix)]

/-- **Every guarded call is a move.** -/
theorem move_of_guard (hlead : JobId.IsLead ctx.settings.jobPrefix) (hguard : Guard ctx tablePrefix c s)
    (h : Replies c s reply s') : Move ctx tablePrefix s s' := by
  cases c with
  | put => exact move_of_put hlead hguard h
  | delete => exact move_of_delete hguard h
  | submit job =>
    obtain hsame | ⟨hnew, hsite⟩ := h.site.submit_cases
    · exact .of_site_eq hsame
    · exact .submit hguard hnew (by rw [hsite]) (by rw [hsite]) ⟨_, h.log⟩
  | freshId =>
    obtain ⟨-, -, hsite⟩ := h.site
    exact .idle (by rw [lock, hsite, ← lock]) (by rw [hsite]) (by rw [hsite])
  | _ => exact .of_site_eq (h.site.eq_of_isPassive trivial)

/-- **No move changes what is planned for a marker.** -/
theorem gives_plan_of_guard {marker : String} (hmarker : IsMarker tablePrefix marker)
    (hguard : Guard ctx tablePrefix c s) (h : Replies c s reply s') :
    s'.site.store.gives (Submission.plan ctx marker) = s.site.store.gives (Submission.plan ctx marker) := by
  cases c with
  | put key body precondition =>
    obtain ⟨hsame, -⟩ | ⟨-, -, now, hsite⟩ := h.site.put_cases
    · rw [hsame]
    · rw [hsite]
      refine Store.gives_plan_write ctx body now ?_ hmarker.directory_ne_empty
      rcases hguard with ⟨rfl, -⟩ | rfl | ⟨created, rfl⟩
      · exact hmarker.unread_lock
      · exact hmarker.unread_backfill
      · exact hmarker.unread_claim created
  | delete key precondition =>
    obtain ⟨hsame, -⟩ | ⟨-, -, -, hsite⟩ := h.site.delete_cases
    · rw [hsame]
    · rw [hsite]
      refine Store.gives_plan_remove ctx ?_ hmarker.directory_ne_empty
      rcases hguard with ⟨rfl, -⟩ | hfinished | rfl
      · exact hmarker.unread_lock
      · exact hmarker.unread_pointer (Store.startsWith_of_mem_pointers (List.mem_of_head? hfinished.1))
      · exact hmarker.unread_backfill
  | submit job =>
    obtain hsame | ⟨-, hsite⟩ := h.site.submit_cases
    · rw [hsame]
    · rw [hsite]
  | freshId =>
    obtain ⟨-, -, hsite⟩ := h.site
    rw [hsite]
  | _ => rw [h.site.eq_of_isPassive trivial]

/-! ## What stays true -/

section Names

variable {store : Store} {pointer suffix suffix' marker : String} {plan : Plan} {part : Nat} {job : Job}
  (h : DueJob ctx tablePrefix store pointer suffix plan part job) (hsuffix' : JobId.IsSuffix suffix')
  (hid : (JobId.splitPart job.id).1 = JobId.make ctx.settings.jobPrefix marker suffix')

include h hsuffix' hid

/-- The name of a job tells the name of all parts. -/
theorem DueJob.make_eq : JobId.make ctx.settings.jobPrefix marker suffix' =
    JobId.make ctx.settings.jobPrefix (Backlog.markerFor pointer) suffix := by
  rw [h.id_eq] at hid
  cases plan with
  | query =>
    rw [Plan.nameOf, JobId.splitPart_make _ _ h.hex] at hid
    exact hid.symm
  | loads => exact JobId.make_eq_of_splitPart h.hex hsuffix' hid

theorem DueJob.suffix_eq : suffix' = suffix :=
  (JobId.make_inj hsuffix' h.hex (h.make_eq hsuffix' hid)).2

end Names

variable {roster : Roster ctx.settings.jobPrefix}

theorem Basic.drawn_of_move (hbasic : Basic tablePrefix roster s) (hmove : Move ctx tablePrefix s s')
    (hdrawn : ∀ suffix ∈ s.site.drawn, suffix ∈ s'.site.drawn) : ∀ job ∈ s'.site.accepted, ∀ marker suffix,
      JobId.IsSuffix suffix → (JobId.splitPart job.id).1 = JobId.make ctx.settings.jobPrefix marker suffix →
        suffix ∈ s'.site.drawn := by
  have hold : ∀ job ∈ s.site.accepted, ∀ marker suffix, JobId.IsSuffix suffix →
      (JobId.splitPart job.id).1 = JobId.make ctx.settings.jobPrefix marker suffix → suffix ∈ s'.site.drawn :=
    fun job hjob marker suffix hsuffix hid => hdrawn _ (hbasic.drawn job hjob marker suffix hsuffix hid)
  cases hmove with
  | submit hannounced hnew hstore haccepted =>
    rw [haccepted]
    intro job hjob marker suffix hsuffix hid
    rcases List.mem_append.1 hjob with hjob | hjob
    · exact hold job hjob marker suffix hsuffix hid
    · obtain rfl := List.mem_singleton.1 hjob
      obtain ⟨store, now, pointer, suffix', plan, part, -, hdue, hmem, -⟩ := hannounced
      exact hdue.suffix_eq hsuffix hid ▸ hdrawn _ hmem
  | idle _ _ haccepted => rw [haccepted]; exact hold
  | fail _ _ haccepted => rw [haccepted]; exact hold
  | claim _ _ _ _ haccepted => rw [haccepted]; exact hold
  | drain _ _ _ haccepted => rw [haccepted]; exact hold
  | pop _ _ _ _ haccepted => rw [haccepted]; exact hold

/-- No move adds a pointer. -/
theorem Move.pointers_subset (hmove : Move ctx tablePrefix s s') :
    s'.site.store.pointers tablePrefix ⊆ s.site.store.pointers tablePrefix := by
  cases hmove with
  | idle _ hpointers => rw [hpointers]; exact List.Subset.refl _
  | fail _ hpointers => rw [hpointers]; exact List.Subset.refl _
  | claim _ _ _ hpointers => rw [hpointers]; exact List.Subset.refl _
  | submit _ _ hstore => rw [hstore]; exact List.Subset.refl _
  | drain _ _ hpointers => rw [hpointers]; exact List.Subset.refl _
  | pop _ hbefore hpointers => rw [hpointers, hbefore]; exact List.subset_cons_self _ _

/-- **Guarded calls keep what is true of every scene.** -/
theorem Basic.of_guard (hlead : JobId.IsLead ctx.settings.jobPrefix) (hbasic : Basic tablePrefix roster s)
    (hguard : Guard ctx tablePrefix c s) (h : Replies c s reply s') : Basic tablePrefix roster s' where
  drawn := hbasic.drawn_of_move (move_of_guard hlead hguard h) h.site.mono.1
  seen := by
    intro id status hmem
    rw [h.log, List.mem_append, List.mem_singleton] at hmem
    refine h.site.mono.2 id ?_
    rcases hmem with hmem | hevent
    · exact hbasic.seen id status hmem
    · cases hevent
      exact h.honest
  listed q hq := hbasic.listed q ((move_of_guard hlead hguard h).pointers_subset hq)

end Scene
end Intake
