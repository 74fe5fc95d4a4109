import Intake.Proofs.Blame
import Intake.Proofs.Files
import Intake.Proofs.Redelivery
/-!
# Forfeit — a delivery that stops after its claim gives up the marker

A claim is never taken back.  A delivery of a success marker that fails, or is cut off, has left everything as it was if
it had not come to its claim; the marker can then be delivered again, and is put into the backlog or applied.  If it had,
the marker is lost: every later delivery finds the claim there and returns that it is a duplicate, even if nothing was
submitted and no pointer was written, and even after what was in the way has been removed.
-/
namespace Intake

/-- The call did not fail. -/
def CloudCall.Served : (c : CloudCall) → c.Reply → Prop
  | .openBucket _, reply => reply = .ok ()
  | .submit _, reply => ∃ status, reply = .ok status
  | c, reply => ¬ c.Failed reply

namespace Site

variable {α β : Type} {goal goal' : CloudProgram α → Site → Prop} {site : Site}

/-- **What a program comes to for sure** that nobody disturbs and whose calls do not fail. -/
inductive Comes (goal : CloudProgram α → Site → Prop) : CloudProgram α → Site → Prop where
  | here {p : CloudProgram α} {site : Site} (h : goal p site) : Comes goal p site
  | call {c : CloudCall} {next : c.Reply → CloudProgram α} {site : Site}
      (hserved : ∃ reply mid, Answers c site reply mid ∧ c.Served reply)
      (hnext : ∀ reply mid, Answers c site reply mid → c.Served reply → Comes goal (next reply) mid) :
    Comes goal (Program.ask c next) site

theorem Comes.trans {p : CloudProgram α} (h : Comes goal p site) (hgoal : ∀ p site, goal p site → Comes goal' p site) :
    Comes goal' p site := by
  induction h with
  | here h => exact hgoal _ _ h
  | call hserved _ ih => exact .call hserved ih

theorem Comes.bind {p : CloudProgram α} {goal' : CloudProgram β → Site → Prop} (h : Comes goal p site)
    (f : α → CloudProgram β) (hgoal : ∀ p site, goal p site → Comes goal' (p.bind f) site) :
    Comes goal' (Program.bind p f) site := by
  induction h with
  | here h => exact hgoal _ _ h
  | call hserved _ ih => exact .call hserved ih

/-- What is done first stays done. -/
theorem Comes.first {p : CloudProgram α} {done : Site → Prop} (h : Comes (fun _ t => done t) p site)
    (f : α → CloudProgram β) : Comes (fun _ t => done t) (Program.bind p f) site :=
  h.bind f fun _ _ hdone => .here hdone

/-- The program has returned, and everything is as it was. -/
def Returns (a : α) (site : Site) (p : CloudProgram α) (site' : Site) : Prop := p = .done a ∧ site' = site

theorem Comes.after {x : Invocation α} {f : α → Invocation β} {a : α}
    {goal : CloudProgram (Except Failure β) → Site → Prop} (hx : Comes (Returns (.ok a) site) x.run site)
    (hf : Comes goal (f a).run site) : Comes goal (x >>= f).run site := by
  refine hx.bind _ fun p t h => ?_
  obtain ⟨rfl, rfl⟩ := h
  exact hf

theorem served_of_reply? {c : CloudCall} {reply : c.Reply} (hc : c.IsReading)
    (h : site.store.reply? c = some reply) : Answers c site reply site ∧ c.Served reply := by
  cases c with
  | get key =>
    refine ⟨⟨rfl, .inl h⟩, ?_⟩
    rintro ⟨fault, rfl, hfault⟩
    simp only [Store.reply?] at h
    split at h
    · cases h
    · cases h
      cases hfault
  | head key =>
    refine ⟨⟨rfl, .inl h⟩, ?_⟩
    rintro ⟨fault, rfl, -⟩
    cases h
  | list start delimiter =>
    refine ⟨⟨rfl, .inl h⟩, ?_⟩
    rintro ⟨fault, rfl, -⟩
    cases h
  | _ => exact hc.elim

theorem Answers.reply?_of_served {c : CloudCall} {reply : c.Reply} {mid : Site} (h : Answers c site reply mid)
    (hc : c.IsReading) (hserved : c.Served reply) : site.store.reply? c = some reply := by
  refine (h.reply?_eq hc).resolve_right ?_
  cases c with
  | get | head | list => exact hserved
  | _ => exact hc.elim

theorem exists_served_put {key : String} {body : Octets} (precondition : Precondition) (now : Timestamp) :
    ∃ reply mid, Answers (.put key body precondition) site reply mid ∧
      CloudCall.Served (.put key body precondition) reply := by
  refine ⟨_, _, .inr ⟨now, rfl, rfl⟩, ?_⟩
  rintro ⟨fault, e, -⟩
  cases e

theorem Answers.put_served {key : String} {body : Octets} {precondition : Precondition}
    {reply : Except StoreFault PutResult} {mid : Site} (h : Answers (.put key body precondition) site reply mid)
    (hserved : CloudCall.Served (.put key body precondition) reply)
    (hfree : Store.refuses? precondition (site.store.get? key) = none) :
    (∃ version, reply = .ok (.written version)) ∧ ∃ now, mid = { site with store := site.store.write key body now } := by
  obtain ⟨hfailed, -⟩ | ⟨now, rfl, rfl⟩ := h
  · exact absurd hfailed hserved
  · simp only [Store.put, hfree]
    exact ⟨⟨_, rfl⟩, now, rfl⟩

theorem Answers.put_absent {key : String} {body : Octets} {reply : Except StoreFault PutResult} {mid : Site}
    (h : Answers (.put key body .absent) site reply mid) (hserved : CloudCall.Served (.put key body .absent) reply)
    (hthere : (site.store.get? key).isSome = true) : mid = site ∧ ∃ current, reply = .ok (.conflict current) := by
  obtain ⟨object, hobject⟩ := Option.isSome_iff_exists.1 hthere
  obtain ⟨hfailed, -⟩ | ⟨now, rfl, rfl⟩ := h
  · exact absurd hfailed hserved
  · simp [Store.put, hobject, Store.refuses?]

/-- **A program that only looks at the store returns what the store says.** -/
theorem comes_of_readOff {r : Except Failure α} : ∀ {p : CloudProgram (Except Failure α)}, p.Reads →
    site.store.readOff p = some r → Comes (Returns r site) p site
  | Program.done _, _, h => .here ⟨congrArg Program.done (Option.some.inj h), rfl⟩
  | Program.ask c next, hp, h => by
    obtain ⟨reply, hreply, hrest⟩ := Option.bind_eq_some_iff.1 h
    refine .call ⟨reply, site, served_of_reply? hp.1 hreply⟩ fun reply' mid hanswers hserved => ?_
    obtain rfl : site = mid := (hanswers.eq_of_isPassive hp.1.isPassive).symm
    obtain rfl : reply = reply' := Option.some.inj (hreply.symm.trans (hanswers.reply?_of_served hp.1 hserved))
    exact comes_of_readOff (hp.2 reply).1 hrest

theorem comes_of_gives {x : Invocation α} {a : α} (hx : x.Reads) (h : site.store.gives x = some a) :
    Comes (Returns (.ok a) site) x.run site := by
  refine comes_of_readOff hx.run ?_
  unfold Store.gives at h
  split at h
  · rename_i hread
    rw [hread, Option.some.inj h]
  · cases h

theorem comes_of_ends {a : α} {p : CloudProgram α} (h : p.Ends a) : Comes (Returns a site) p site := by
  induction p with
  | done b => exact .here ⟨congrArg Program.done h, rfl⟩
  | ask c next ih =>
    obtain ⟨⟨metric, rfl⟩, hnext⟩ := h
    refine .call ⟨(), site, rfl, id⟩ fun reply mid hanswers _ => ?_
    obtain rfl : site = mid := Eq.symm hanswers
    exact ih reply (hnext reply)
  | halt => exact h.elim

theorem Reaches.eq_of_ends {a : α} {p p' : CloudProgram α} {site' : Site} (h : Reaches p site p' site')
    (hp : p.Ends a) : site' = site := by
  induction h with
  | refl => rfl
  | call hanswers _ ih =>
    obtain ⟨⟨metric, rfl⟩, hnext⟩ := hp
    exact (ih (hnext _)).trans hanswers

end Site

namespace Forfeit

open Site (Comes Reaches Returns)

variable {α β : Type} {marker claim : String} {info : ObjectInfo} {site site' : Site}

/-! ## Where a delivery stops -/

/-- **Until it creates its claim, a delivery leaves everything as it is**; from then on the claim is there. -/
theorem claimed_of_gated {p p' : CloudProgram (Except Failure α)} {post : Except Failure α → Site → Prop}
    (h : Reaches p site p' site') (hp : p.Gated marker)
    (hkeeps : p.Keeps (Site.undisturbed fun c _ => c.Leaves claim) post site)
    (hmarker : ∀ object, site.store.get? marker = some object → Claim.key marker object.created = claim) :
    site' = site ∨ site.store.get? claim = none ∧ (site'.store.get? claim).isSome = true := by
  -- along the run: while it is gated the site is the one it began with
  induction h with
  | refl => exact .inl rfl
  | call hanswers hrest ih =>
    have hnext := hkeeps.2 _ _ hanswers
    obtain rfl := hanswers.eq_of_isPassive hp.1
    rcases hp.2 _ with hgated | ⟨info, hsighting, after, hafter, hconflict, hfault⟩
    · exact ih hgated hnext hmarker
    · -- it has seen the marker, so its next call is the claim, unless it stops before that
      have hclaim := Redelivery.claim_of_sighting hsighting hanswers hmarker
      rw [hafter] at hrest hnext
      cases hrest with
      | refl => exact .inl rfl
      | @call _ _ reply _ mid _ _ hput hrest =>
        obtain ⟨rfl, hunwritten⟩ | ⟨-, hfree, now, rfl⟩ := Site.Answers.put_cases hput
        · match reply with
          | .ok (.written version) => exact absurd rfl (hunwritten version)
          | .ok (.conflict current) => exact .inl (hrest.eq_of_ends (hconflict current))
          | .error fault => exact .inl (hrest.eq_of_ends (hfault fault))
        · -- the claim was created, and is not deleted from now on
          refine .inr ⟨hclaim ▸ Store.eq_none_of_refuses?_absent hfree, ?_⟩
          exact hrest.keeps (fun hleaves hanswers hthere => hanswers.isSome_of_leaves hleaves hthere) (hnext.2 _ _ hput)
            (by rw [hclaim]; simp)

theorem keeps_handle {ctx : Context} {n : Notification} (htrigger : Dispatch.triggerOf ctx.layout n = .successMarker)
    (created : Timestamp) (site : Site) : Program.Keeps (Site.undisturbed fun c _ => c.Leaves (Claim.key n.key created))
      (fun _ _ => True) (Dispatch.handle ctx n).run site := by
  have hmarker := Dispatch.isBacklog_of_successMarker htrigger
  have h := (Redelivery.handling hmarker created ⟨ctx, n⟩).keeps_handle (s := ⟨site, []⟩) trivial
  exact Pool.Stand.undisturbed h

/-! ## How it is delivered again -/

/-- The invocation comes to claiming what there is of a marker, and leaves everything as it is until then. -/
def Attempts (info : ObjectInfo) (x : Invocation α) (site : Site) : Prop :=
  Comes (fun p t => p.Claims info ∧ t = site) x.run site

theorem Attempts.bind {x : Invocation α} (hx : Attempts info x site) (f : α → Invocation β) :
    Attempts info (x >>= f) site := by
  have hfails : ∀ e, Program.Ends (.error e) (ExceptT.bindCont f (.error e)) := fun _ => rfl
  exact Comes.bind hx _ fun _ _ h => .here ⟨h.1.bind hfails, h.2⟩

/-- A marker that is there is seen. -/
theorem comes_sighting {object : StoredObject} {goal : CloudProgram α → Site → Prop}
    {next : Except StoreFault (Option ObjectInfo) → CloudProgram α} (hobject : site.store.get? marker = some object)
    (h : Comes goal (next (.ok (some (object.info marker)))) site) :
    Comes goal (Program.ask (I := Cloud) (.head marker) next) site := by
  have hhead : site.store.reply? (.head marker) = some (.ok (some (object.info marker))) := by
    simp [Store.reply?, Store.head?, hobject]
  refine .call ⟨_, site, Site.served_of_reply? trivial hhead⟩ fun reply mid hanswers hserved => ?_
  obtain rfl : site = mid := (hanswers.eq_of_isPassive trivial).symm
  obtain rfl : _ = reply := Option.some.inj (hhead.symm.trans (hanswers.reply?_of_served trivial hserved))
  exact h

theorem attempts_take {object : StoredObject} (hobject : site.store.get? marker = some object) :
    Attempts (object.info marker) (Claim.take marker) site :=
  comes_sighting hobject (.here ⟨⟨_, rfl, fun _ => rfl, fun _ => rfl⟩, rfl⟩)

/-- Whether batches are to be applied in order can be told from every store. -/
theorem exists_gives_orderedIn (store : Store) : ∀ folders,
    ∃ ordered, store.gives (ConfigFiles.orderedIn folders) = some ordered
  | [] => ⟨false, rfl⟩
  | folder :: rest => by
    obtain ⟨ordered, hordered⟩ := exists_gives_orderedIn store rest
    unfold ConfigFiles.orderedIn
    rw [Store.gives_bind, Store.gives_head]
    cases store.head? (Key.join folder Key.orderName) with
    | some => exact ⟨true, rfl⟩
    | none => exact ⟨ordered, hordered⟩

/-- Everything is there that a delivery of a marker needs before it claims it. -/
structure Deliverable (ctx : Context) (n : Notification) (created : Timestamp) (site : Site) : Prop where
  trigger : Dispatch.triggerOf ctx.layout n = .successMarker
  table : ∃ tablePrefix, ctx.layout.tablePrefix n.key = .ok tablePrefix
  marker : ∃ object, site.store.get? n.key = some object ∧ object.created = created

theorem exists_gives_isOrdered (ctx : Context) (marker : String) (store : Store) :
    ∃ ordered, store.gives (Dispatch.isOrdered ctx marker) = some ordered := by
  unfold Dispatch.isOrdered
  split
  · exact ⟨true, rfl⟩
  · exact exists_gives_orderedIn store (ConfigFiles.folders marker)

variable {ctx : Context} {n : Notification} {created : Timestamp} {ordered : Bool}
  {goal : CloudProgram (Except Failure Outcome) → Site → Prop}

/-- **A delivery comes to what the work on its marker comes to.** -/
theorem comes_handle {goal' : CloudProgram (Except Failure Outcome) → Site → Prop}
    (htrigger : Dispatch.triggerOf ctx.layout n = .successMarker) (hordered : site.store.gives (Dispatch.isOrdered ctx n.key) = some ordered)
    (h : Comes goal (Dispatch.deliver { ctx with bucket := n.bucket } n.key ordered).run site)
    (hgoal : ∀ p t, goal p t →
      goal' (Program.bind p fun r => Program.bind (Dispatch.countResult r) fun _ => .done r) t) :
    Comes goal' (Dispatch.handle ctx n).run site := by
  have hact : Comes goal (ExceptT.run (do
      if Dispatch.triggerOf ctx.layout n ≠ .ignored then Invocation.store (CloudProgram.ask (.openBucket n.bucket))
      Dispatch.act { ctx with bucket := n.bucket } n.key (Dispatch.triggerOf ctx.layout n))) site := by
    have hopen : Comes (Returns (.ok ()) site) (Invocation.store (CloudProgram.ask (.openBucket n.bucket))).run site := by
      refine .call ⟨.ok (), site, rfl, rfl⟩ fun reply mid hanswers hserved => ?_
      obtain rfl : reply = .ok () := hserved
      exact .here ⟨rfl, hanswers⟩
    rw [htrigger]
    refine hopen.after ?_
    show Comes goal (Dispatch.successMarker _ _).run site
    rw [Dispatch.successMarker_eq]
    exact (Site.comes_of_gives (Dispatch.reads_isOrdered _ _) hordered).after h
  refine .call ⟨(), site, rfl, id⟩ fun reply mid hanswers _ => ?_
  obtain rfl : site = mid := Eq.symm hanswers
  exact Comes.bind hact _ fun p t h => .here (hgoal p t h)

theorem attempts_deliver {object : StoredObject} {tablePrefix : String}
    (htable : ctx.layout.tablePrefix marker = .ok tablePrefix) (hobject : site.store.get? marker = some object) :
    Attempts (object.info marker) (Dispatch.deliver ctx marker ordered) site := by
  unfold Dispatch.deliver
  split
  · have henqueue : Attempts (object.info marker) (enqueue ctx marker) site := by
      unfold enqueue
      rw [htable]
      exact (attempts_take hobject).bind _
    exact henqueue.bind _
  · exact ((attempts_take hobject).bind _).bind _

/-- **A delivery whose calls do not fail comes to claiming the marker.** -/
theorem attempts_handle {object : StoredObject} (hsite : Deliverable ctx n created site)
    (hobject : site.store.get? n.key = some object) : Attempts (object.info n.key) (Dispatch.handle ctx n) site := by
  obtain ⟨ordered, hordered⟩ := exists_gives_isOrdered ctx n.key site.store
  obtain ⟨tablePrefix, htable⟩ := hsite.table
  have hattempts : Attempts (object.info n.key) (Dispatch.deliver { ctx with bucket := n.bucket } n.key ordered) site :=
    attempts_deliver htable hobject
  exact comes_handle hsite.trigger hordered hattempts fun _ _ h => ⟨h.1.bind Dispatch.ends_countResult, h.2⟩

theorem Attempts.duplicate {x : Invocation α} (hx : Attempts info x site)
    (hthere : (site.store.get? (Claim.key info.key info.created)).isSome = true) :
    Comes (Returns (.error (.duplicate (Claim.key info.key info.created))) site) x.run site := by
  refine hx.trans fun p t h => ?_
  obtain ⟨⟨next, rfl, hconflict, -⟩, rfl⟩ := h
  refine .call (Site.exists_served_put _ info.created) fun reply mid hanswers hserved => ?_
  obtain ⟨rfl, current, rfl⟩ := hanswers.put_absent hserved hthere
  exact Site.comes_of_ends (hconflict current)

theorem Attempts.claimed {x : Invocation α} (hx : Attempts info x site)
    (hnone : site.store.get? (Claim.key info.key info.created) = none) :
    Comes (fun _ t => (t.store.get? (Claim.key info.key info.created)).isSome = true) x.run site := by
  refine hx.trans fun p t h => ?_
  obtain ⟨⟨next, rfl, -⟩, rfl⟩ := h
  refine .call (Site.exists_served_put _ info.created) fun reply mid hanswers hserved => ?_
  obtain ⟨-, now, rfl⟩ := hanswers.put_served hserved (by rw [hnone]; rfl)
  exact .here (by simp)

/-! ## What it goes on to do -/

section GoesOn

variable {object : StoredObject}

/-- **A marker that nobody has claimed is claimed**, if the calls do not fail. -/
theorem comes_take (hobject : site.store.get? marker = some object)
    (hnone : site.store.get? (Claim.key marker object.created) = none) :
    Comes (fun p t => p = .done (.ok (object.info marker)) ∧
      ∃ now, t = { site with store := site.store.write (Claim.key marker object.created) [] now })
      (Claim.take marker).run site := by
  have hfree : Store.refuses? .absent (site.store.get? (Claim.key marker object.created)) = none := by rw [hnone]; rfl
  refine comes_sighting hobject (.call (Site.exists_served_put _ object.created) fun reply mid hanswers hserved => ?_)
  obtain ⟨⟨version, rfl⟩, hmid⟩ := hanswers.put_served hserved hfree
  exact .here ⟨rfl, hmid⟩

/-- A marker is put into the backlog of its table. -/
structure Queueable (ctx : Context) (n : Notification) (site : Site) (tablePrefix pointer : String) : Prop where
  ordered : site.store.gives (Dispatch.isOrdered ctx n.key) = some true
  table : ctx.layout.tablePrefix n.key = .ok tablePrefix
  pointer : Backlog.pointerFor tablePrefix n.key = .ok pointer

/-- **The pointer is written.** -/
theorem comes_enqueue {tablePrefix pointer : String} (htable : ctx.layout.tablePrefix marker = .ok tablePrefix)
    (hpointer : Backlog.pointerFor tablePrefix marker = .ok pointer) (hobject : site.store.get? marker = some object)
    (hnone : site.store.get? (Claim.key marker object.created) = none) :
    Comes (fun _ t => pointer ∈ t.store.pointers tablePrefix) (enqueue ctx marker).run site := by
  unfold enqueue
  rw [htable]
  refine Comes.bind (comes_take hobject hnone) _ fun p t h => ?_
  obtain ⟨rfl, now, rfl⟩ := h
  have hpush : Comes (fun _ t => pointer ∈ t.store.pointers tablePrefix) (Backlog.push tablePrefix marker).run
      { site with store := site.store.write (Claim.key marker object.created) [] now } := by
    unfold Backlog.push
    rw [hpointer]
    refine .call (Site.exists_served_put _ now) fun reply mid hanswers hserved => ?_
    obtain ⟨-, now, rfl⟩ := hanswers.put_served hserved rfl
    obtain ⟨rest, -, -, rfl⟩ := Backlog.pointerFor_eq_ok hpointer
    exact .here (List.mem_filter.2 ⟨Store.mem_keys_write.2 (.inl rfl), startsWith_iff.2 ⟨rest, rfl⟩⟩)
  exact hpush.first _

/-- A marker is applied at once: there is something to do for it, and a name for its first job. -/
structure Applicable (ctx : Context) (n : Notification) (site : Site) (plan : Plan) : Prop where
  unordered : site.store.gives (Dispatch.isOrdered ctx n.key) = some false
  planned : site.store.gives (Submission.plan { ctx with bucket := n.bucket } n.key) = some plan
  drawable : ∃ suffix, JobId.IsSuffix suffix ∧ suffix ∉ site.drawn
  unused : ∀ suffix, JobId.IsSuffix suffix → suffix ∉ site.drawn →
    plan.nameOf (JobId.make ctx.settings.jobPrefix n.key suffix) 0 ∉ site.ids

theorem comes_submitAndWatch {job : Job} (hnew : job.id ∉ site.ids) :
    Comes (fun _ t => t.accepted = site.accepted ++ [job]) (Submission.submitAndWatch ctx job).run site := by
  have hserved : ∃ reply mid, Site.Answers (.submit job) site reply mid ∧ CloudCall.Served (.submit job) reply :=
    ⟨.ok { jobId := job.id, state := .pending }, _, .inr ⟨hnew, rfl⟩, _, rfl⟩
  refine .call hserved fun reply mid hanswers hserved => ?_
  obtain ⟨status, rfl⟩ := hserved
  obtain ⟨⟨fault, e⟩, -⟩ | ⟨-, rfl⟩ := hanswers
  · cases e
  · exact .here rfl

theorem comes_leased {x : Leased α} {f : α → Leased β} {held : Option TableLock} {done : Site → Prop}
    (h : Comes (fun _ t => done t) (x.run.run held) site) : Comes (fun _ t => done t) ((x >>= f).run.run held) site := by
  rw [Leased.run_bind]
  exact h.first _

/-- Where there is no lock to take, a job is submitted at once. -/
theorem comes_claimLock {job : Job} (hnew : job.id ∉ site.ids) (next : Bool → Unit → Leased α) :
    Comes (fun _ t => t.accepted = site.accepted ++ [job]) ((do
      let locked ← Leased.claimLock job.id
      let done ← (Submission.submitAndWatch ctx job : Leased Unit)
      next locked done : Leased α).run.run none) site := by
  have hsubmit : Comes (fun _ t => t.accepted = site.accepted ++ [job])
      ((Leased.lift (Submission.submitAndWatch ctx job)).run.run none) site := (comes_submitAndWatch hnew).first _
  rw [Leased.run_bind]
  exact comes_leased hsubmit

/-- **Without a lock, carrying out a plan begins with its first job.** -/
theorem comes_carryOut {jobId : String} {plan : Plan} {job : Job} (hjob : plan.job? 0 = some job)
    (hnew : plan.nameOf jobId 0 ∉ site.ids) :
    Comes (fun _ t => t.accepted = site.accepted ++ [{ job with id := plan.nameOf jobId 0 }])
      ((Submission.carryOut ctx jobId 0 plan).run.run none) site := by
  cases plan with
  | query query =>
    obtain rfl := Option.some.inj hjob
    exact comes_claimLock hnew fun _ _ => pure _
  | loads jobs =>
    cases jobs with
    | nil => cases hjob
    | cons first rest =>
      obtain rfl := Option.some.inj hjob
      simp only [Submission.carryOut, List.length_cons, Nat.le_zero_eq, Nat.add_one_ne_zero, if_false, List.drop_zero,
        Submission.loadJobs]
      exact comes_leased (comes_claimLock hnew _)

theorem comes_apply {jobId : String} {plan : Plan} {job : Job}
    (hplan : site.store.gives (Submission.plan ctx marker) = some plan) (hjob : plan.job? 0 = some job)
    (hnew : plan.nameOf jobId 0 ∉ site.ids) :
    Comes (fun _ t => t.accepted = site.accepted ++ [{ job with id := plan.nameOf jobId 0 }])
      ((Submission.apply ctx marker jobId 0).run.run none) site := by
  have hread : Comes (Returns (.ok plan, none) site) ((Leased.lift (Submission.plan ctx marker)).run.run none) site := by
    refine (Site.comes_of_gives (Submission.reads_plan ctx marker) hplan).bind _ fun p t h => ?_
    obtain ⟨rfl, rfl⟩ := h
    exact .here ⟨rfl, rfl⟩
  unfold Submission.apply
  rw [Submission.submitJobs_eq, Leased.run_recording, Leased.run_bind]
  refine Comes.first (hread.bind _ fun p t h => ?_) _
  obtain ⟨rfl, rfl⟩ := h
  exact comes_carryOut hjob hnew

/-- **The first job is submitted.** -/
theorem comes_applyNow {plan : Plan} (hplan : site.store.gives (Submission.plan ctx marker) = some plan)
    (hdrawable : ∃ suffix, JobId.IsSuffix suffix ∧ suffix ∉ site.drawn)
    (hunused : ∀ suffix, JobId.IsSuffix suffix → suffix ∉ site.drawn →
      plan.nameOf (JobId.make ctx.settings.jobPrefix marker suffix) 0 ∉ site.ids)
    (hobject : site.store.get? marker = some object)
    (hnone : site.store.get? (Claim.key marker object.created) = none) :
    Comes (fun _ t => ∃ job suffix, plan.job? 0 = some job ∧ t.accepted = site.accepted ++
      [{ job with id := plan.nameOf (JobId.make ctx.settings.jobPrefix marker suffix) 0 }])
      (Dispatch.applyNow ctx marker).run site := by
  obtain ⟨job, hjob⟩ := Store.exists_first_job hplan
  obtain ⟨drawn, hdrawn, hfresh⟩ := hdrawable
  refine Comes.bind (comes_take hobject hnone) _ fun p t h => ?_
  obtain ⟨rfl, now, rfl⟩ := h
  refine .call ⟨drawn, _, ⟨hdrawn, hfresh, rfl⟩, id⟩ fun suffix mid hanswers _ => ?_
  obtain ⟨hsuffix, hfresh, rfl⟩ := hanswers
  -- the claim is no data, so the plan is still the same
  have hplan' := (Store.gives_plan_claim ctx now hnone).trans hplan
  have hnew : plan.nameOf (JobId.make ctx.settings.jobPrefix marker suffix) 0 ∉
      Site.ids ⟨site.store.write (Claim.key marker object.created) [] now, site.accepted, suffix :: site.drawn⟩ :=
    hunused suffix hsuffix hfresh
  have happly : Comes (fun _ t => t.accepted = site.accepted ++
      [{ job with id := plan.nameOf (JobId.make ctx.settings.jobPrefix marker suffix) 0 }])
      ((Submission.apply ctx marker (JobId.make ctx.settings.jobPrefix marker suffix) 0).run.run none)
      ⟨site.store.write (Claim.key marker object.created) [] now, site.accepted, suffix :: site.drawn⟩ :=
    comes_apply hplan' hjob hnew
  exact Comes.bind happly _ fun _ _ h => .here ⟨job, suffix, hjob, h⟩

end GoesOn

/-! ## Who says that it is a duplicate -/

section Blameless

variable {layout : Layout} {x : Invocation α} {f : α → Invocation β}

/-- Undisturbed, the invocation does not fail because somebody else has claimed a marker. -/
def Blameless (layout : Layout) (x : Invocation α) (site : Site) : Prop :=
  Program.Keeps (Site.undisturbed fun _ _ => True) (fun r _ => ∀ e, r = .error e → e.IsForeign .claim layout) x.run site

theorem blameless_of_foreign (hx : x.FailsForeign .claim layout) (site : Site) : Blameless layout x site := by
  have hkeeps : Program.Keeps (Site.undisturbed fun _ _ => True)
      (fun r _ => (∀ e, r = .error e → e.IsForeign .claim layout) ∧ True) x.run site :=
    Program.keeps_of_wild (fun _ _ _ _ => trivial) (fun _ _ _ _ _ _ _ => trivial) hx.run trivial
  exact Program.Keeps.mono (fun _ _ h => h.1) hkeeps

theorem Blameless.bind (hx : Blameless layout x site) (hf : ∀ a, (f a).FailsForeign .claim layout) :
    Blameless layout (x >>= f) site := by
  refine Program.Keeps.bind hx fun r t hr => ?_
  cases r with
  | ok a => exact blameless_of_foreign (hf a) t
  | error e => exact fun e' he => Except.error.inj he ▸ hr e rfl

/-- Looking first leaves everything as it is. -/
theorem Blameless.after (hx : x.FailsForeign .claim layout) (hlooks : x.Only CloudCall.IsPassive)
    (hf : ∀ a, Blameless layout (f a) site) : Blameless layout (x >>= f) site := by
  have hsame : Program.Keeps (Site.undisturbed fun _ _ => True) (fun _ t => t = site) x.run site :=
    Program.Only.keeps (fun _ _ _ _ => trivial)
      (fun _ _ _ _ hc hs hanswers => (hanswers.eq_of_isPassive hc).trans hs) hlooks rfl
  refine Program.Keeps.bind (Program.Keeps.and (blameless_of_foreign hx site) hsame) fun r t hr => ?_
  obtain ⟨hr, rfl⟩ := hr
  cases r with
  | ok a => exact hf a
  | error e => exact fun e' he => Except.error.inj he ▸ hr e rfl

/-- **Who finds no claim is not refused it.** -/
theorem blameless_take (hmarker : ∀ object, site.store.get? marker = some object →
    site.store.get? (Claim.key marker object.created) = none) : Blameless layout (Claim.take marker) site := by
  have hfails : ∀ fault e, (Except.error (.store fault) : Except Failure ObjectInfo) = .error e →
      e.IsForeign .claim layout := fun fault e he => by cases he; exact Failure.isForeign_of_race? rfl _ _
  refine ⟨trivial, fun reply mid hanswers => ?_⟩
  obtain ⟨rfl, hhead | ⟨fault, rfl, -⟩⟩ := hanswers
  · obtain rfl := Option.some.inj hhead
    cases hobject : mid.store.get? marker with
    | none =>
      rw [Store.head?, hobject]
      exact hfails _
    | some object =>
      rw [Store.head?, hobject]
      refine ⟨trivial, fun reply mid' hanswers => ?_⟩
      obtain ⟨⟨fault, rfl, -⟩, -⟩ | ⟨now, hreply, -⟩ := hanswers
      · exact hfails fault
      · have hput : (mid.store.put (Claim.key marker object.created) [] .absent now).1 =
            .written (decimal mid.store.nextGeneration) := by
          rw [Store.put, hmarker object hobject]
          rfl
        obtain rfl : reply = .ok (.written _) := hreply.trans (congrArg Except.ok hput)
        exact fun e he => by cases he
  · exact hfails fault

theorem blameless_deliver (hmarker : ∀ object, site.store.get? marker = some object →
    site.store.get? (Claim.key marker object.created) = none) (ordered : Bool) :
    Blameless ctx.layout (Dispatch.deliver ctx marker ordered) site := by
  unfold Dispatch.deliver
  split
  · have hpush : ∀ tablePrefix, Invocation.FailsForeign .claim ctx.layout (do
        let pointer ← Backlog.push tablePrefix marker
        Invocation.count (.backlogOperations "push")
        let backfill ← (BackfillMarker.ofTable tablePrefix ctx.layout.gateName).post
        return (⟨tablePrefix, pointer, backfill⟩ : Enqueued)) := fun tablePrefix =>
      (Backlog.foreign_push _ _).bind fun _ => (Invocation.foreign_ask _).bind fun _ =>
        (BackfillMarker.foreign_post _).bind fun _ => Invocation.foreign_pure _
    have henqueue : Blameless ctx.layout (enqueue ctx marker) site :=
      .after (Invocation.foreign_ofExcept fun _ h => Layout.isForeign_of_tablePrefix h) (Invocation.only_ofExcept _)
        fun tablePrefix => (blameless_take hmarker).bind fun _ => hpush tablePrefix
    exact henqueue.bind fun _ => (Monitor.foreign_ensureSubscriber _ _).bind fun _ => Invocation.foreign_pure _
  · have happly : Blameless ctx.layout (Dispatch.applyNow ctx marker) site := by
      refine (blameless_take hmarker).bind fun _ => (Invocation.foreign_ask .freshId).bind fun suffix => ?_
      exact (Submission.foreign_apply ctx marker (JobId.make ctx.settings.jobPrefix marker suffix) 0).life
    exact happly.bind fun _ => Invocation.foreign_pure _

/-- **A delivery that finds no claim does not return that it is a duplicate.** -/
theorem blameless_handle (htrigger : Dispatch.triggerOf ctx.layout n = .successMarker)
    (hmarker : ∀ object, site.store.get? n.key = some object → site.store.get? (Claim.key n.key object.created) = none) :
    Blameless ctx.layout (Dispatch.handle ctx n) site := by
  have hdeliver : ∀ ordered, Blameless ({ ctx with bucket := n.bucket } : Context).layout
      (Dispatch.deliver { ctx with bucket := n.bucket } n.key ordered) site := blameless_deliver hmarker
  have hact : Blameless ctx.layout (do
      if Dispatch.triggerOf ctx.layout n ≠ .ignored then Invocation.store (CloudProgram.ask (.openBucket n.bucket))
      Dispatch.act { ctx with bucket := n.bucket } n.key (Dispatch.triggerOf ctx.layout n)) site := by
    rw [htrigger]
    refine .after (Invocation.foreign_store _) (Invocation.only_store (Invocation.only_call trivial)) fun _ => ?_
    show Blameless ctx.layout (Dispatch.successMarker _ _) site
    rw [Dispatch.successMarker_eq]
    exact .after (Dispatch.foreign_isOrdered _ _) (Dispatch.reads_isOrdered _ _).passive hdeliver
  have hcounted : Program.Keeps (Site.undisturbed fun _ _ => True) (fun _ t => t = site)
      (CloudProgram.ask (.count (.notifications (Dispatch.triggerOf ctx.layout n).name))) site :=
    ⟨trivial, fun _ _ hanswers => hanswers⟩
  refine Program.Keeps.bind hcounted fun _ t ht => ?_
  obtain rfl := ht
  refine Program.Keeps.bind hact fun r t hr => ?_
  have hcount : Program.Keeps (Site.undisturbed fun _ _ => True) (fun _ _ => True) (Dispatch.countResult r) t :=
    Program.Only.keeps (fun _ _ _ _ => trivial) (fun _ _ _ _ _ _ _ => trivial) (Dispatch.passive_countResult r) trivial
  exact Program.Keeps.bind hcount fun _ _ _ => hr

end Blameless

/-- **A delivery that stops after its claim gives up the marker.**  At whatever point the delivery of a success marker
stops, because it fails or is cut off, it has left everything as it was, or it has created its claim, which was not
there.  A delivery of the same marker at any later time, if everything is there that it needs and its calls do not fail,
takes the claim if it is not there, does not return that it is a duplicate, and goes on to put the marker into the backlog
or to submit the first job for it; if the claim is there, it returns for sure that it is a duplicate, and leaves everything
as it is. -/
theorem forfeited_of_claimed {rest : CloudProgram (Except Failure Outcome)}
    (htrigger : Dispatch.triggerOf ctx.layout n = .successMarker)
    (hcreated : ∀ object, site.store.get? n.key = some object → object.created = created)
    (h : Reaches (Dispatch.handle ctx n).run site rest site') :
    (site' = site ∨ site.store.get? (Claim.key n.key created) = none ∧
      (site'.store.get? (Claim.key n.key created)).isSome = true) ∧
    ∀ (ctx' : Context) (later : Site), Deliverable ctx' n created later →
      (later.store.get? (Claim.key n.key created) = none →
        Comes (fun _ t => (t.store.get? (Claim.key n.key created)).isSome = true) (Dispatch.handle ctx' n).run later ∧
        (∀ claim t, Reaches (Dispatch.handle ctx' n).run later (.done (.error (.duplicate claim))) t →
          ∃ key, ctx'.layout.resolver key = .error (.duplicate claim)) ∧
        (∀ tablePrefix pointer, Queueable ctx' n later tablePrefix pointer →
          Comes (fun _ t => pointer ∈ t.store.pointers tablePrefix) (Dispatch.handle ctx' n).run later) ∧
        ∀ plan, Applicable ctx' n later plan → Comes (fun _ t => ∃ job suffix, plan.job? 0 = some job ∧
          t.accepted = later.accepted ++
            [{ job with id := plan.nameOf (JobId.make ctx'.settings.jobPrefix n.key suffix) 0 }])
          (Dispatch.handle ctx' n).run later) ∧
      ((later.store.get? (Claim.key n.key created)).isSome = true → Comes
        (Returns (.error (.duplicate (Claim.key n.key created))) later) (Dispatch.handle ctx' n).run later) := by
  refine ⟨?_, fun ctx' later hlater => ?_⟩
  · have hkeeps := keeps_handle htrigger created site
    exact claimed_of_gated h (Dispatch.gated_handle htrigger) hkeeps fun object hobject => by rw [hcreated object hobject]
  · obtain ⟨object, hobject, rfl⟩ := hlater.marker
    have hattempts := attempts_handle hlater hobject
    refine ⟨fun hnone => ⟨hattempts.claimed hnone, ?_, fun tablePrefix pointer hqueue => ?_, fun plan happly => ?_⟩,
      hattempts.duplicate⟩
    · have hblameless : Blameless ctx'.layout (Dispatch.handle ctx' n) later := by
        refine blameless_handle hlater.trigger fun other hother => ?_
        rw [Option.some.inj (hother.symm.trans hobject)]
        exact hnone
      exact fun claim t hreached => hreached.post hblameless _ rfl rfl
    · exact comes_handle hlater.trigger hqueue.ordered ((comes_enqueue hqueue.table hqueue.pointer hobject hnone).first _)
        fun _ _ h => h
    · exact comes_handle hlater.trigger happly.unordered
        ((comes_applyNow happly.planned happly.drawable happly.unused hobject hnone).first _) fun _ _ h => h

/-! ## Two failures on the trial table -/

theorem created_of_map {store : Store} {key : String} (h : (store.get? key).map (·.created) = some created)
    (object : StoredObject) (hobject : store.get? key = some object) : object.created = created := by
  rw [hobject] at h
  exact Option.some.inj h

def inOrder : Context := { Trial.context with settings.alwaysOrdered := true }

def completed : Notification := ⟨"lake", "d/t/a/_SUCCESS", none⟩

/-- The trial table, while nothing can be written into its backlog. -/
def blocked : World :=
  let table := Trial.table []
  { table with bucket := { table.bucket with failing := ["d/t/_backlog/"] } }

/-- The marker is claimed, and no pointer is written. -/
def failed : CloudProgram (Except Failure Outcome) × World := blocked.runFor 6 (Dispatch.handle inOrder completed).run

/-- Everything is there for the marker to be applied at once. -/
theorem exists_applicable_completed : ∃ plan, Applicable Trial.context completed blocked.site plan := by
  have hplan : (blocked.site.store.gives
      (Submission.plan { Trial.context with bucket := completed.bucket } completed.key)).isSome = true := by decide +kernel
  obtain ⟨plan, hplan⟩ := Option.isSome_iff_exists.1 hplan
  have haccepted : blocked.site.accepted = [] := by decide +kernel
  have hdrawn : blocked.site.drawn = [] := by decide +kernel
  refine ⟨plan, by decide +kernel, hplan, ⟨World.idOf 0, World.isSuffix_idOf (by decide), ?_⟩, fun _ _ _ => ?_⟩
  · rw [hdrawn]
    exact List.not_mem_nil
  · rw [Site.ids, haccepted]
    exact List.not_mem_nil

/-- No pointer can be written for a marker that was claimed.  The next delivery, which could write it, is a duplicate;
without the claim it would write it, or submit a job where there is no order. -/
theorem forfeited_of_claimed_blocked : ∃ (site site' : Site) (fault : StoreFault) (claim : String),
    Reaches (Dispatch.handle inOrder completed).run site (.done (.error (.store fault))) site' ∧
    site'.accepted = [] ∧ site'.store.pointers "d/t" = [] ∧ site.store.get? claim = none ∧
    Comes (Returns (.error (.duplicate claim)) site') (Dispatch.handle inOrder completed).run site' ∧
    Comes (fun _ t => "d/t/_backlog/a/_SUCCESS" ∈ t.store.pointers "d/t") (Dispatch.handle inOrder completed).run site ∧
    Comes (fun _ t => t.accepted ≠ []) (Dispatch.handle Trial.context completed).run site := by
  let created : Timestamp := World.start.later (.ofMillis 2)
  have hsteady : blocked.Steady (fun _ => True) 6 := by
    have htable : (Trial.table []).Steady (fun _ => True) 6 := Trial.steady_table _ trivial (by decide)
    exact ⟨htable.calm.of_warehouse htable.calm.planned rfl, trivial, htable.room⟩
  have hreaches : Reaches (Dispatch.handle inOrder completed).run blocked.site failed.1 failed.2.site :=
    World.reaches_runFor (World.abides_lenient "" "") hsteady (Nat.le_refl 6) _
  have htrigger : Dispatch.triggerOf inOrder.layout completed = .successMarker := by decide +kernel
  have htable : inOrder.layout.tablePrefix completed.key = .ok "d/t" := by decide +kernel
  have hbefore : (blocked.site.store.get? "d/t/a/_SUCCESS").map (·.created) = some created := by decide +kernel
  have hafter : (failed.2.site.store.get? "d/t/a/_SUCCESS").map (·.created) = some created := by decide +kernel
  obtain ⟨hstopped, hagain⟩ := forfeited_of_claimed htrigger (created_of_map hbefore) hreaches
  have hqueueable : Queueable inOrder completed blocked.site "d/t" "d/t/_backlog/a/_SUCCESS" :=
    ⟨rfl, htable, by decide +kernel⟩
  have hmoved : failed.2.site.store.nextGeneration ≠ blocked.site.store.nextGeneration := by decide +kernel
  obtain ⟨hnone, hthere⟩ := hstopped.resolve_left fun hsame => hmoved (by rw [hsame])
  have hfailure : World.failure? failed.1 =
      some (.store (.storage "injected failure for path: d/t/_backlog/a/_SUCCESS" false)) := by decide +kernel
  rw [World.eq_done_of_failure? hfailure] at hreaches
  have hduplicate := (hagain inOrder _ ⟨htrigger, ⟨_, htable⟩, Option.map_eq_some_iff.1 hafter⟩).2 hthere
  obtain ⟨-, -, hqueued, -⟩ := (hagain inOrder _ ⟨htrigger, ⟨_, htable⟩, Option.map_eq_some_iff.1 hbefore⟩).1 hnone
  obtain ⟨-, -, -, happlied⟩ := (hagain Trial.context _ ⟨htrigger, ⟨_, htable⟩, Option.map_eq_some_iff.1 hbefore⟩).1 hnone
  obtain ⟨plan, happlicable⟩ := exists_applicable_completed
  have hsubmitted : Comes (fun _ t => t.accepted ≠ []) (Dispatch.handle Trial.context completed).run blocked.site := by
    refine (happlied plan happlicable).trans fun _ t h => .here ?_
    obtain ⟨job, suffix, -, haccepted⟩ := h
    rw [haccepted]
    exact List.append_ne_nil_of_right_ne_nil _ (List.cons_ne_nil _ _)
  exact ⟨_, _, _, _, hreaches, by decide +kernel, by decide +kernel, hnone, hduplicate, hqueued _ _ hqueueable, hsubmitted⟩

/-- A marker without any files. -/
def early : Notification := ⟨"lake", "d/t/c/_SUCCESS", none⟩

/-- It has come before its files. -/
def bare : World := (Trial.table []).given "d/t/c/_SUCCESS" []

/-- The marker is applied at once, and there is nothing to load. -/
def hasty : CloudProgram (Except Failure Outcome) × World := bare.runFor 12 (Dispatch.handle Trial.context early).run

/-- Then the file comes. -/
def filled : World := hasty.2.given "d/t/c/w.csv" [52]

/-- The marker is delivered again. -/
def again : CloudProgram (Except Failure Outcome) × World := filled.runFor 9 (Dispatch.handle Trial.context early).run

/-- **A delivery that fails is not always made up for**: a marker that comes before its files is claimed, and fails
because there is nothing to load.  When the file is there the marker is delivered again, as a duplicate. -/
theorem duplicate_of_failed : ∃ (site site' : Site) (failure : Failure) (file claim : String) (now : Timestamp),
    Reaches (Dispatch.handle Trial.context early).run site (.done (.error failure)) site' ∧
    failure.isRecoverable = false ∧ site'.accepted = [] ∧ site'.store.pointers "d/t" = [] ∧
    Reaches (Dispatch.handle Trial.context early).run { site' with store := site'.store.write file [52] now }
      (.done (.error (.duplicate claim))) { site' with store := site'.store.write file [52] now } := by
  have hsteady : bare.Steady (fun _ => True) 21 := by
    have htable : (Trial.table []).Steady (fun _ => True) 21 := Trial.steady_table _ trivial (by decide)
    exact ⟨htable.calm.given _ _, trivial, htable.room⟩
  have hsteady' : filled.Steady (fun _ => True) 9 := by
    have hhasty := hsteady.runFor (World.abides_lenient "" "") (show 12 ≤ 21 by decide)
      (Dispatch.handle Trial.context early).run
    exact ⟨hhasty.calm.given _ _, trivial, hhasty.room⟩
  have hfirst : Reaches (Dispatch.handle Trial.context early).run bare.site hasty.1 hasty.2.site :=
    World.reaches_runFor (World.abides_lenient "" "") hsteady (by decide) _
  have hsecond : Reaches (Dispatch.handle Trial.context early).run filled.site again.1 again.2.site :=
    World.reaches_runFor (World.abides_lenient "" "") hsteady' (by decide) _
  -- the claim is there, so nothing is changed any more
  have hsame : again.2.site = filled.site := by
    have htrigger : Dispatch.triggerOf Trial.context.layout early = .successMarker := by decide +kernel
    have hmarker : (filled.site.store.get? "d/t/c/_SUCCESS").map (·.created) = some bare.instant := by decide +kernel
    have hthere : filled.site.store.get? (Claim.key "d/t/c/_SUCCESS" bare.instant) ≠ none := by decide +kernel
    have hkeeps := keeps_handle htrigger bare.instant filled.site
    obtain hsame | ⟨hnone, -⟩ := claimed_of_gated hsecond (Dispatch.gated_handle htrigger) hkeeps fun object hobject => by
      rw [created_of_map hmarker object hobject]
    · exact hsame
    · exact absurd hnone hthere
  have hfailure : World.failure? hasty.1 = some (.noInput "d/t/c/") := by decide +kernel
  have hduplicate : World.failure? again.1 = some (.duplicate (Claim.key "d/t/c/_SUCCESS" bare.instant)) := by
    decide +kernel
  rw [World.eq_done_of_failure? hfailure] at hfirst
  rw [World.eq_done_of_failure? hduplicate, hsame] at hsecond
  exact ⟨_, _, _, "d/t/c/w.csv", _, hasty.2.instant, hfirst, rfl, by decide +kernel, by decide +kernel, hsecond⟩

end Forfeit
end Intake
