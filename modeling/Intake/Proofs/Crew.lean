import Intake.Proofs.Lease
import Intake.Proofs.Modest
/-!
# Crew — a subscriber among others

Between any two calls of an invocation the others may act, as long as they keep the lock's promise.  What a subscriber has
seen of the lock stays worth something meanwhile, so it makes only calls that keep the promise too (`Crew.outline`).
-/
namespace Intake

open Account

/-- The call leaves the lock of a table alone, and submits nothing. -/
def CloudCall.Aloof (tablePrefix : String) : CloudCall → Prop
  | .put key _ _ => key ≠ TableLock.keyOf tablePrefix
  | .delete key _ => key ≠ TableLock.keyOf tablePrefix
  | .submit _ => False
  | _ => True

theorem CloudCall.IsModest.aloof {c : CloudCall} {tablePrefix : String} (h : c.IsModest tablePrefix) :
    c.Aloof tablePrefix := by
  cases c with
  | put key =>
    rcases h with ⟨marker, created, rfl⟩ | hpointer | rfl
    · exact Claim.key_ne_lock _ _ _
    · exact Backlog.ne_lock_of_startsWith hpointer
    · exact BackfillMarker.keyOf_ne_lock _ _
  | delete key =>
    obtain rfl := h
    exact BackfillMarker.keyOf_ne_lock _ _
  | submit job => exact h
  | _ => trivial

theorem CloudCall.IsPassive.aloof {c : CloudCall} (h : c.IsPassive) (tablePrefix : String) : c.Aloof tablePrefix := by
  cases c <;> trivial

/-- **The surroundings of one invocation among others**: before each of its calls the others may have acted. -/
def Account.among (jobPrefix tablePrefix : String) : Surroundings Cloud Account where
  admits c a := ∀ b, Later tablePrefix a b → Permitted jobPrefix tablePrefix c b
  answers c a reply a' := ∃ b, Later tablePrefix a b ∧ b.Sound jobPrefix tablePrefix ∧ Answers tablePrefix c b reply a'

namespace Crew

variable {jobPrefix tablePrefix : String} {a : Account} {α : Type}

theorem later_of_answers {c : CloudCall} {reply : c.Reply} {b : Account}
    (hadmits : (among jobPrefix tablePrefix).admits c a) (h : (among jobPrefix tablePrefix).answers c a reply b) :
    Later tablePrefix a b := by
  obtain ⟨a', hlater, hsound, hanswers⟩ := h
  exact hlater.trans (sound_of_permitted hsound (hadmits a' hlater) hanswers).2

theorem admits_of_aloof {c : CloudCall} (h : c.Aloof tablePrefix) : (among jobPrefix tablePrefix).admits c a := by
  intro b _
  cases c with
  | put key body precondition => exact fun hkey => absurd hkey h
  | delete key precondition => exact fun hkey => absurd hkey h
  | submit job => exact h.elim
  | _ => trivial

/-- **What lasts is still true after calls that leave the lock alone.** -/
theorem keeps_aloof {x : Invocation α} {fact : Account → Prop} (hx : x.Only (CloudCall.Aloof tablePrefix))
    (hlasting : Lasting tablePrefix fact) (ha : fact a) :
    x.Keeps (among jobPrefix tablePrefix) (fun _ a => fact a) a :=
  hx.keeps (fun _ _ hc _ => admits_of_aloof hc)
    (fun _ s _ s' hc hs hr => hlasting s s' (later_of_answers (admits_of_aloof hc) hr) hs) ha

theorem keeps_modest {x : Invocation α} {fact : Account → Prop} (hx : x.Only (CloudCall.IsModest tablePrefix))
    (hlasting : Lasting tablePrefix fact) (ha : fact a) :
    x.Keeps (among jobPrefix tablePrefix) (fun _ a => fact a) a :=
  keeps_aloof (hx.mono fun _ hc => hc.aloof) hlasting ha

theorem keeps_passive {x : Invocation α} {fact : Account → Prop} (hx : x.Only CloudCall.IsPassive)
    (hlasting : Lasting tablePrefix fact) (ha : fact a) :
    x.Keeps (among jobPrefix tablePrefix) (fun _ a => fact a) a :=
  keeps_aloof (hx.mono fun _ hc => hc.aloof tablePrefix) hlasting ha

theorem lasting_true : Lasting tablePrefix fun _ => True := fun _ _ _ _ => trivial

theorem lasting_and {p q : Account → Prop} (hp : Lasting tablePrefix p) (hq : Lasting tablePrefix q) :
    Lasting tablePrefix fun a => p a ∧ q a := fun a b h hpq => ⟨hp a b h hpq.1, hq a b h hpq.2⟩

theorem lasting_finished (id : String) : Lasting tablePrefix fun a => id ∈ a.finished := fun _ _ h hid => h.finished id hid

/-! ## The lock -/

/-- Reading the lock tells what it says under the version that is remembered, even if it changes in between. -/
theorem keeps_readLock {version : Option String} :
    Leased.readLock.Keeps (among jobPrefix tablePrefix) (.ofTable tablePrefix jobPrefix)
      (fun body version a => Seen jobPrefix tablePrefix version body a) version a := by
  refine Leased.keeps_readLock (admits_of_aloof trivial) (fun _ _ => .inl rfl) (fun _ _ _ => admits_of_aloof trivial)
    ?_ (fun _ _ _ _ _ _ _ => .inl rfl)
  rintro seen a₁ body a₂ ⟨b, -, -, hhead⟩ ⟨b', hlater, -, hget⟩
  obtain ⟨hsite, hreply | ⟨fault, e, -⟩⟩ := hhead.site
  · obtain ⟨hsite', hreply' | ⟨fault, e, -⟩⟩ := hget.site
    · have hseen : b.site.store.head? (TableLock.keyOf tablePrefix) = some seen :=
        Except.ok.inj (Option.some.inj hreply)
      obtain ⟨object, hobject, rfl⟩ := Store.get?_of_reply? hreply'
      rw [Seen, hsite']
      exact Store.recalls_of_read hseen (hsite ▸ hlater.store) hobject
    · cases e
  · cases e

/-- **A handle that takes over what it has seen has its name claimed.** -/
theorem keeps_claimLock {id : String} {version : Option String} (hid : Unpadded id)
    (hready : Ready jobPrefix tablePrefix version a) :
    (Leased.claimLock id).Keeps (among jobPrefix tablePrefix) (.ofTable tablePrefix jobPrefix)
      (fun locked _ a => locked = true ∧ id ∈ a.claimed) version a := by
  refine Leased.keeps_claimLock (fun b hb _ => .inr ⟨id, version, rfl, hid, rfl, lasting_ready version a b hb hready⟩) ?_
    fun _ _ _ => trivial
  rintro v a' ⟨b, hb, hsound, hanswers⟩
  refine ⟨rfl, ?_⟩
  obtain ⟨-, hunwritten⟩ | ⟨-, hfree, -⟩ := hanswers.site.put_cases
  · exact absurd rfl (hunwritten v)
  · have hfinished : b.AllFinished := (lasting_ready version a b hb hready).allFinished hsound hfree
    have hclaimed := hanswers.claimed
    have hkey : (TableLock.ofTable tablePrefix jobPrefix).key = TableLock.keyOf tablePrefix := rfl
    rw [if_pos hfinished, written?, if_pos hkey, Utf8.decodeLossy_encode] at hclaimed
    rw [hclaimed]
    exact List.mem_cons_self

theorem keeps_releaseLock {version : Option String} (hready : Ready jobPrefix tablePrefix version a) :
    Leased.releaseLock.Keeps (among jobPrefix tablePrefix) (.ofTable tablePrefix jobPrefix) (fun _ _ _ => True)
      version a := by
  refine Leased.keeps_releaseLock (fun _ => trivial) ?_ (fun _ _ _ _ _ _ => trivial)
  rintro v rfl b hb -
  exact ⟨some v, rfl, lasting_ready (some v) a b hb hready⟩

/-- A job that the warehouse says has ended has finished. -/
theorem keeps_job {id : String} {fact : Account → Prop} (hlasting : Lasting tablePrefix fact) (ha : fact a) :
    (Invocation.job id).Keeps (among jobPrefix tablePrefix) (fun status a => fact a ∧
      ∀ known, status = some known → known.isDone = true → fact a ∧ id ∈ a.finished) a := by
  refine Invocation.keeps_warehouse ⟨admits_of_aloof trivial, fun r a' hr status e => ?_⟩
  have ha' := hlasting a a' (later_of_answers (c := .job id) (admits_of_aloof trivial) hr) ha
  refine ⟨ha', ?_⟩
  rintro known rfl hdone
  obtain ⟨b, -, -, hanswers⟩ := hr
  have htrue := hanswers.truthful
  rw [e] at htrue
  exact ⟨ha', hanswers.finished ▸ htrue hdone⟩

theorem keeps_draw {version : Option String} (hready : Ready jobPrefix tablePrefix version a) :
    (Invocation.ask .freshId).Keeps (among jobPrefix tablePrefix)
      (fun suffix a => JobId.IsSuffix suffix ∧ Ready jobPrefix tablePrefix version a) a := by
  refine Invocation.keeps_ask (admits_of_aloof trivial) fun suffix a' hr => ⟨?_, ?_⟩
  · obtain ⟨b, -, -, hanswers⟩ := hr
    exact hanswers.site.1
  · exact lasting_ready version a a' (later_of_answers (c := .freshId) (admits_of_aloof trivial) hr) hready

/-- The first pointer of the backlog lies in its folder, so taking it away leaves the lock alone. -/
theorem keeps_pop {fact : Account → Prop} (hlasting : Lasting tablePrefix fact) (ha : fact a) :
    (Backlog.pop tablePrefix).Keeps (among jobPrefix tablePrefix) (fun _ a => fact a) a := by
  have hnext : (Backlog.next tablePrefix).Keeps (among jobPrefix tablePrefix)
      (fun pointer a => fact a ∧ ∀ q, pointer = some q → startsWith (Backlog.folder tablePrefix) q = true) a := by
    have hlist : (Invocation.list (Backlog.folder tablePrefix) none).Keeps (among jobPrefix tablePrefix)
        (fun listing a => fact a ∧ ∀ o ∈ listing.objects, startsWith (Backlog.folder tablePrefix) o.key = true) a := by
      refine Invocation.keeps_store ⟨admits_of_aloof trivial, fun r a' hr listing e => ?_⟩
      refine ⟨hlasting a a' (later_of_answers (c := .list _ _) (admits_of_aloof trivial) hr) ha, fun o ho => ?_⟩
      obtain ⟨b, -, -, hanswers⟩ := hr
      obtain ⟨-, hreply | ⟨fault, e', -⟩⟩ := hanswers.site
      · rw [e] at hreply
        have hl : b.site.store.list (Backlog.folder tablePrefix) none = listing :=
          Except.ok.inj (Option.some.inj hreply)
        have hkey : o.key ∈ (b.site.store.list (Backlog.folder tablePrefix) none).objects.map (·.key) :=
          List.mem_map_of_mem (hl ▸ ho)
        rw [Store.list_keys] at hkey
        exact (List.mem_filter.1 hkey).2
      · rw [e'] at e; cases e
    refine hlist.bind fun listing a h => Invocation.keeps_pure ⟨h.1, fun q hq => ?_⟩
    obtain ⟨o, ho, rfl⟩ := Option.map_eq_some_iff.1 hq
    exact h.2 o (List.mem_of_head? ho)
  refine hnext.bind fun pointer a h => ?_
  split
  · exact Invocation.keeps_pure h.1
  · rename_i q
    have hq : q ≠ TableLock.keyOf tablePrefix := Backlog.ne_lock_of_startsWith (h.2 q rfl)
    exact keeps_aloof ((Invocation.only_store (Invocation.only_call hq)).bind fun _ => Invocation.only_pure _)
      hlasting h.1

theorem keeps_trigger : (Invocation.head (BackfillMarker.keyOf tablePrefix)).Keeps (among jobPrefix tablePrefix)
    (fun found a => ∀ object, found = some object →
      (Claim.takeObject object).Keeps (among jobPrefix tablePrefix) (fun _ _ => True) a) a := by
  refine Invocation.keeps_store ⟨admits_of_aloof trivial, fun r a' hr found e => ?_⟩
  rintro object rfl
  obtain ⟨b, -, -, hanswers⟩ := hr
  exact keeps_modest (Claim.free_takeObject (hanswers.site.key_of_head e)).modest lasting_true trivial

/-! ## A subscriber -/

/-- **What a subscriber relies on among others**: that it is ready to take over the lock as it has seen it. -/
def outline (ctx : Context) (tablePrefix : String) (hlead : JobId.IsLead ctx.settings.jobPrefix) :
    Outline (among ctx.settings.jobPrefix tablePrefix) ctx tablePrefix where
  Seen body version a := Seen ctx.settings.jobPrefix tablePrefix version body a
  Told id _ version a := Seen ctx.settings.jobPrefix tablePrefix version (some (.job id)) a ∧ id ∈ a.finished
  Over _ version a := Ready ctx.settings.jobPrefix tablePrefix version a
  First _ _ version a := Ready ctx.settings.jobPrefix tablePrefix version a
  Open version a := Ready ctx.settings.jobPrefix tablePrefix version a
  Next _ version a := Ready ctx.settings.jobPrefix tablePrefix version a
  Turn _ base _ version a := Unpadded base ∧ Ready ctx.settings.jobPrefix tablePrefix version a
  Planned _ base _ _ version a := Unpadded base ∧ Ready ctx.settings.jobPrefix tablePrefix version a
  Claimed job a := job.id ∈ a.claimed
  Mild _ _ := True
  Start _ := True
  posts hx := keeps_modest hx.free.modest lasting_true trivial
  starts hx _ := keeps_modest hx.posting.free.modest lasting_true trivial
  trigger _ := keeps_trigger
  records failure version _ _ _ _ _ :=
    .inl ((TableLock.ofTable tablePrefix ctx.settings.jobPrefix).ofOctets?_errorText hlead.ne_empty failure)
  lasts _ _ _ := trivial
  mildSeen _ := trivial
  mildTurn _ := trivial
  readLock := keeps_readLock
  waits hseen hx := keeps_passive hx.passive (lasting_seen _ _) hseen
  asks hseen := keeps_job (lasting_seen _ _) hseen
  checks htold := by
    refine (keeps_passive (JobWatch.waiting_check _ _).passive (lasting_and (lasting_seen _ _) (lasting_finished _)) htold).mono ?_
    exact fun _ _ h => ⟨_, h⟩
  looks hready := keeps_passive (Backlog.reads_next _).passive (lasting_ready _) hready
  vacant hseen := ⟨none, hseen, trivial⟩
  empty hready := hready
  other hready _ := hready
  resumes hready hfor hsplit _ := by
    obtain ⟨suffix, hsuffix, hbase⟩ := JobId.isFor_iff.1 hfor
    simp only [hsplit] at hbase
    exact ⟨hbase ▸ JobId.unpadded_make hlead hsuffix, hready⟩
  pops hready _ _ := keeps_pop (lasting_ready _) hready
  counts hready := keeps_passive (Invocation.passive_count _) (lasting_ready _) hready
  times hready := keeps_passive Invocation.passive_now (lasting_ready _) hready
  next hready := keeps_passive (Backlog.reads_next _).passive (lasting_ready _) hready
  releases hready := keeps_releaseLock hready
  finds hready := keeps_passive (Invocation.reads_head _).passive (lasting_ready _) hready
  draws hready := (keeps_draw hready).mono fun _ _ h => ⟨JobId.unpadded_make hlead h.1, h.2⟩
  findsAgain h := keeps_passive (Invocation.reads_head _).passive (lasting_and (fun _ _ _ h => h) (lasting_ready _)) h
  plans h := keeps_passive (Submission.reads_plan _ _).passive (lasting_and (fun _ _ _ h => h) (lasting_ready _)) h
  claims h _ := (keeps_claimLock (Plan.unpadded_nameOf h.1 _) h.2).mono fun _ _ _ h => ⟨h.1, h.2, trivial⟩
  submits hclaimed := Invocation.keeps_warehouse ⟨fun b hb => hb.claimed _ hclaimed, fun _ _ _ _ _ => trivial⟩

end Crew
end Intake
