import Intake.Proofs.Watching
/-!
# Draining — a subscriber does not let go of a pointer

A subscriber deletes the backfill marker only after it has found the backlog empty, so every pointer that is there then is
younger than the marker and than its last pop.  If such a pointer has been there for the time that a monitor waits, the
subscriber looks at the backlog once more, and posts the marker again.  In any case the marker that it has claimed is gone
when it returns.
-/
namespace Intake

/-- Where a version was to be replaced, it is not there afterwards. -/
theorem Store.generation_ne_of_put_version {store : Store} {key : String} {body : Octets} {now : Timestamp}
    {generation : Nat} {object : StoredObject} (hlt : generation < store.nextGeneration) (hroom : generation < 2 ^ 63)
    (h : (store.put key body (.version (decimal generation)) now).2.get? key = some object) :
    object.generation ≠ generation := by
  obtain ⟨current, hput⟩ | ⟨-, hput⟩ := store.put_cases key body (.version (decimal generation)) now
  · rintro rfl
    rw [hput] at h
    rw [put, h, refuses?, if_pos (isVersion_decimal hroom)] at hput
    cases hput
  · rw [hput, get?_write_self, Option.some.injEq] at h
    rw [← h]
    exact Nat.ne_of_gt hlt

namespace Upkeep

variable {tablePrefix : String} {window : Duration} {i : Nat} {s : Bool} {ctx : Context} {t t' : View}

/-! ## The quiet parts of a turn -/

theorem isQuiet_lock (body : Octets) (version : Option String) :
    CloudCall.IsQuiet tablePrefix (.put (TableLock.keyOf tablePrefix) body (.unchanged version)) := by
  cases version <;> exact ⟨rfl, rfl⟩

theorem isQuiet_delete {key : String} (precondition : Precondition) (h : key ≠ BackfillMarker.keyOf tablePrefix) :
    CloudCall.IsQuiet tablePrefix (.delete key precondition) :=
  ⟨rfl, beq_eq_false_iff_ne.2 h⟩

/-- Waiting for a job and submitting one is quiet. -/
def outline (ctx : Context) (tablePrefix : String) :
    TurnOutline (.wild (CloudCall.IsQuiet tablePrefix)) ctx tablePrefix :=
  .loose (.any fun hc => hc.isQuiet tablePrefix) tablePrefix (isQuiet_lock _ _)

section Quiet

variable {α : Type} {x : Leased α} {version : Option String}

theorem keeps_leased (h : x.Keeps (.wild (CloudCall.IsQuiet tablePrefix)) (.ofTable tablePrefix ctx.settings.jobPrefix)
      (fun _ _ _ => True) version ()) : x.Keeps (env tablePrefix window i s)
      (.ofTable tablePrefix ctx.settings.jobPrefix) (fun _ _ t' => Quietly i t t') version t := by
  refine h.of_wild (fun _ _ hc _ => admits_of_quiet hc) (fun _ _ _ _ hc hquiet hr => ?_) (.refl i t)
  obtain ⟨l, hreplied⟩ := hr
  exact hquiet.trans (hreplied.looked hc).toQuietly

theorem keeps_readLock : Leased.readLock.Keeps (env tablePrefix window i s)
    (.ofTable tablePrefix ctx.settings.jobPrefix) (fun _ _ t' => Quietly i t t') version t :=
  keeps_leased (Leased.keeps_readLock ⟨rfl, rfl⟩ (fun _ _ => trivial) (fun _ _ _ => ⟨rfl, rfl⟩) (fun _ _ _ _ _ _ => trivial)
    fun _ _ _ _ _ _ _ => trivial)

theorem keeps_releaseLock : Leased.releaseLock.Keeps (env tablePrefix window i s)
    (.ofTable tablePrefix ctx.settings.jobPrefix) (fun _ _ t' => Quietly i t t') version t :=
  keeps_leased (Leased.keeps_releaseLock (fun _ => trivial)
    (fun _ _ => isQuiet_delete _ (BackfillMarker.keyOf_ne_lock _ _).symm) fun _ _ _ _ _ _ => trivial)

theorem keeps_pop : (Backlog.pop tablePrefix).Keeps (env tablePrefix window i s) (fun _ t' => Quietly i t t') t := by
  refine keeps_next.bind fun first t₁ hfirst => ?_
  obtain ⟨hlooked, hfirst⟩ := hfirst
  split
  · exact Invocation.keeps_pure hlooked.toQuietly
  · rename_i pointer
    have hne : pointer ≠ BackfillMarker.keyOf tablePrefix := by
      rintro rfl
      have hin := Store.startsWith_of_mem_pointers (List.mem_of_head? hfirst.symm)
      rw [Backlog.backfill_notMem_folder] at hin
      cases hin
    refine (keeps_quiet (Invocation.only_store (Invocation.only_call (isQuiet_delete .always hne)))).bind ?_
    exact fun _ t₂ hquiet => Invocation.keeps_pure (hlooked.toQuietly.trans hquiet)

end Quiet

/-! ## Drains -/

/-- **A subscriber at work**: it has claimed the backfill marker of a generation, and has nothing on its hands. -/
structure Working (i : Nat) (generation : Nat) (front : List Deed) (t : View) : Prop where
  idle : t.ledger.duty i = .idle
  lt : generation < t.ledger.next
  front : front <+: t.log

/-- A subscriber that is done: the marker that it has claimed is gone. -/
structure Finished (tablePrefix : String) (i : Nat) (generation : Nat) (front : List Deed) (t : View) : Prop where
  idle : t.ledger.duty i = .idle
  gone : Gone tablePrefix (decimal generation) t.ledger
  front : front <+: t.log

/-- The backlog was found empty after the last pop: what is there now is younger than the marker, and was pushed since. -/
structure Emptied (tablePrefix : String) (generation : Nat) (lastPop : Duration) (l : Ledger) : Prop where
  lt : generation < l.next
  past : lastPop ≤ l.clock
  younger : ∀ own time, l.Has tablePrefix own time → generation < own ∧ lastPop ≤ time

theorem Emptied.onward {generation : Nat} {lastPop : Duration} {l l' : Ledger}
    (h : Emptied tablePrefix generation lastPop l) (hon : l.Onward l') : Emptied tablePrefix generation lastPop l' where
  lt := Nat.lt_of_lt_of_le h.lt hon.next_le
  past := Nat.le_trans h.past hon.clock
  younger own time hhas := by
    obtain hold | ⟨hnew, htime⟩ := hon.has hhas
    · exact h.younger own time hold
    · exact ⟨Nat.lt_of_lt_of_le h.lt hnew, Nat.le_trans h.past htime⟩

section Subscriber

variable {generation : Nat} {front : List Deed} {lastPop deadline : Duration} {version : Option String}

theorem Working.quietly (h : Working i generation front t) (hquiet : Quietly i t t') : Working i generation front t' :=
  ⟨hquiet.idle h.idle, Nat.lt_of_lt_of_le h.lt hquiet.onward.next_le, h.front.trans hquiet.log⟩

/-- The marker that a subscriber deletes is older than all pointers. -/
theorem admits_clear (hidle : t.ledger.duty i = .idle) (hemptied : Emptied tablePrefix generation lastPop t.ledger) :
    (env tablePrefix window i true).admits
      (.delete (BackfillMarker.keyOf tablePrefix) (.version (decimal generation))) t := by
  refine fun l hlater _ => ⟨nofun, fun precondition _ e => ?_⟩
  cases e
  refine ⟨hlater.duty.trans hidle, fun object _ hfree own time hhas => ?_⟩
  have hversion : Store.isVersion object.generation (decimal generation) = true := by
    by_contra hne
    rw [Store.refuses?, if_neg hne] at hfree
    cases hfree
  rw [Store.eq_of_isVersion_decimal hversion]
  exact ((hemptied.onward hlater.toOnward).younger own time hhas).1

/-- After it has deleted the marker, the subscriber looks at the backlog again if enough time has passed. -/
theorem keeps_drain (hplain : Plain window ctx) (h : Working i generation front t)
    (hemptied : Emptied tablePrefix generation lastPop t.ledger) :
    (Subscriber.drain ctx ⟨tablePrefix, .ofTable tablePrefix none, decimal generation, deadline⟩ lastPop).Keeps
      (env tablePrefix window i true) (.ofTable tablePrefix ctx.settings.jobPrefix)
      (fun _ _ t' => Finished tablePrefix i generation front t') version t := by
  unfold Subscriber.drain
  rw [hplain.wait]
  refine keeps_releaseLock.bind fun _ v t₁ hquiet => ?_
  have h₁ := h.quietly hquiet
  have hemptied₁ := hemptied.onward hquiet.onward
  refine (Leased.keeps_lift_same (keeps_clear h₁.lt (admits_clear h₁.idle hemptied₁))).bind fun result v t₂ hcleared => ?_
  obtain ⟨rfl, hcleared⟩ := hcleared
  have hlt := Nat.lt_of_lt_of_le h₁.lt hcleared.onward.next_le
  have hfront := h₁.front.trans hcleared.log
  split
  · -- the marker is another one
    obtain ⟨⟨object, hobject, hother⟩, hrelief⟩ := hcleared.refused _ rfl
    refine Leased.keeps_pure ⟨hrelief fun _ _ _ hcovers => ?_, ⟨generation, rfl, hlt, fun found hfound => ?_⟩, hfront⟩
    · rw [h₁.idle] at hcovers
      exact hcovers.elim
    · rw [hobject] at hfound
      cases hfound
      exact hother
  · rename_i hne
    obtain ⟨hnone, hduty⟩ := hcleared.done hne
    have habsent : ∀ object, t₂.ledger.marker? tablePrefix ≠ some object := fun object e => by
      rw [hnone] at e
      cases e
    have hgone : Gone tablePrefix (decimal generation) t₂.ledger := ⟨generation, rfl, hlt, fun object e => absurd e (habsent object)⟩
    have hbarred : Barred tablePrefix t₂.ledger.next t₂.ledger := ⟨Nat.le_refl _, fun object e => absurd e (habsent object)⟩
    have hfinished : ∀ {t'}, Quietly i t₂ t' → t'.ledger.duty i = .idle → Finished tablePrefix i generation front t' :=
      fun hquiet hidle => ⟨hidle, hgone.onward hquiet.onward, hfront.trans hquiet.log⟩
    refine (Leased.keeps_lift_same keeps_now).bind fun time v t₃ hnow => ?_
    obtain ⟨rfl, hlooked, rfl⟩ := hnow
    split
    · -- no pointer has been there for long enough
      rename_i hearly
      refine Leased.keeps_pure (hfinished hlooked.toQuietly (hlooked.relief fun own time hhas hcovers => ?_))
      obtain hduty | hduty := hduty
      · rw [hduty] at hcovers
        exact hcovers.elim
      · rw [hduty] at hcovers
        have hpop := (((hemptied₁.onward hcleared.onward).onward hlooked.onward).younger own time hhas).2
        have hlong : time + window ≤ t₃.ledger.clock := hcovers.2
        exact absurd hearly (Nat.not_lt.2 (Nat.le_sub_of_add_le
          (Nat.le_trans (Nat.add_comm .. ▸ Nat.add_le_add_right hpop window) hlong)))
    · refine (Leased.keeps_lift_same keeps_next).bind fun first v t₄ hnext => ?_
      obtain ⟨rfl, hlooked', hfirst⟩ := hnext
      have hquiet := hlooked.toQuietly.trans hlooked'.toQuietly
      split
      · refine Leased.keeps_pure (hfinished hquiet (hlooked'.relief fun _ _ hhas => ?_))
        exact absurd hhas (not_has_of_head?_eq_none hfirst)
      · refine (Leased.keeps_lift_same keeps_post).bind fun outcome v t₅ hposted => ?_
        obtain ⟨rfl, hlooked'', hmarker⟩ := hposted
        have hsettles : Settles tablePrefix window i t₄ := by
          refine (hbarred.onward hquiet.onward).settles ?_
          obtain hsame | hidle := hquiet.duty
          · rw [hsame]
            exact hduty.imp_right .inr
          · exact .inl hidle
        have hdone := hfinished (hquiet.trans hlooked''.toQuietly) (hsettles t₅ hlooked'' hmarker)
        split <;> exact Leased.keeps_pure hdone

/-! ## Turns -/

/-- What is true after a turn. -/
def Turned (tablePrefix : String) (i generation : Nat) (front : List Deed) : Subscriber.Turn → View → Prop
  | .again lastPop, t => Working i generation front t ∧ lastPop ≤ t.ledger.clock
  | .ended _, t => Finished tablePrefix i generation front t

theorem Turned.again (h : Working i generation front t) (hpast : lastPop ≤ t.ledger.clock) (hquiet : Quietly i t t') :
    Turned tablePrefix i generation front (.again lastPop) t' :=
  ⟨h.quietly hquiet, Nat.le_trans hpast hquiet.onward.clock⟩

theorem keeps_advance (hplain : Plain window ctx) (h : Working i generation front t) (hpast : lastPop ≤ t.ledger.clock) :
    ∀ {first : Option String}, (first = none → Emptied tablePrefix generation lastPop t.ledger) →
      (Subscriber.advance ctx ⟨tablePrefix, .ofTable tablePrefix none, decimal generation, deadline⟩ lastPop first).Keeps
        (env tablePrefix window i true) (.ofTable tablePrefix ctx.settings.jobPrefix)
        (fun turn _ t' => Turned tablePrefix i generation front turn t') version t
  | none, hempty => (keeps_drain hplain h (hempty rfl)).bind fun _ _ _ hfinished => Leased.keeps_pure hfinished
  | some _, _ => by
    refine (keeps_leased ((outline ctx tablePrefix).keeps_submitNext trivial)).bind fun _ _ t' hquiet => ?_
    exact Leased.keeps_pure (Turned.again h hpast hquiet)

/-- Looking at the backlog, and going on with what is there. -/
theorem keeps_next_advance (hplain : Plain window ctx) (h : Working i generation front t)
    (hpast : lastPop ≤ t.ledger.clock) :
    (do Subscriber.advance ctx ⟨tablePrefix, .ofTable tablePrefix none, decimal generation, deadline⟩ lastPop
          (← (Backlog.next tablePrefix : Leased (Option String))) : Leased Subscriber.Turn).Keeps
      (env tablePrefix window i true) (.ofTable tablePrefix ctx.settings.jobPrefix)
      (fun turn _ t' => Turned tablePrefix i generation front turn t') version t := by
  refine (Leased.keeps_lift_same keeps_next).bind fun first v t₁ hnext => ?_
  obtain ⟨rfl, hlooked, hfirst⟩ := hnext
  have h₁ := h.quietly hlooked.toQuietly
  have hpast₁ := Nat.le_trans hpast hlooked.onward.clock
  refine keeps_advance hplain h₁ hpast₁ ?_
  rintro rfl
  exact ⟨h₁.lt, hpast₁, fun _ _ hhas => absurd hhas (not_has_of_head?_eq_none hfirst)⟩

theorem keeps_finish (hplain : Plain window ctx) (jobId : String) (h : Working i generation front t)
    (hpast : lastPop ≤ t.ledger.clock) :
    (Subscriber.finish ctx ⟨tablePrefix, .ofTable tablePrefix none, decimal generation, deadline⟩ lastPop jobId).Keeps
      (env tablePrefix window i true) (.ofTable tablePrefix ctx.settings.jobPrefix)
      (fun turn _ t' => Turned tablePrefix i generation front turn t') version t := by
  refine (Leased.keeps_lift_same keeps_next).bind fun first v t₁ hnext => ?_
  obtain ⟨rfl, hlooked, hfirst⟩ := hnext
  have h₁ := h.quietly hlooked.toQuietly
  have hpast₁ := Nat.le_trans hpast hlooked.onward.clock
  split
  · refine keeps_advance hplain h₁ hpast₁ fun _ => ⟨h₁.lt, hpast₁, fun _ _ hhas => ?_⟩
    exact absurd hhas (not_has_of_head?_eq_none hfirst)
  · split
    · split
      · rename_i index _
        have hpart : (Invocation.fitted (Nat.pow 2 64) (JobId.nextIndex index)).Keeps (env tablePrefix window i true)
            (fun _ t' => t' = t₁) t₁ := Invocation.keeps_fitted fun _ => rfl
        refine (Leased.keeps_lift_same hpart).bind fun part v t' h => ?_
        obtain ⟨rfl, rfl⟩ := h
        refine (keeps_leased ((outline ctx tablePrefix).keeps_submitPart trivial)).bind fun _ _ t' hquiet => ?_
        exact Leased.keeps_pure (Turned.again h₁ hpast₁ hquiet)
      · refine (Leased.keeps_lift_same keeps_pop).bind fun _ v t₂ hpop => ?_
        obtain ⟨rfl, hpop⟩ := hpop
        refine (Leased.keeps_lift_same (keeps_quiet (Invocation.passive_count _).quiet)).bind fun _ v t₃ hcount => ?_
        obtain ⟨rfl, hcount⟩ := hcount
        refine (Leased.keeps_lift_same keeps_now).bind fun time v t₄ hnow => ?_
        obtain ⟨rfl, hlooked, rfl⟩ := hnow
        exact keeps_next_advance hplain (((h₁.quietly hpop).quietly hcount).quietly hlooked.toQuietly) (Nat.le_refl _)
    · exact keeps_advance hplain h₁ hpast₁ nofun

theorem keeps_turn (hplain : Plain window ctx) (h : Working i generation front t) (hpast : lastPop ≤ t.ledger.clock) :
    (Subscriber.turn ctx ⟨tablePrefix, .ofTable tablePrefix none, decimal generation, deadline⟩ lastPop).Keeps
      (env tablePrefix window i true) (.ofTable tablePrefix ctx.settings.jobPrefix)
      (fun turn _ t' => Turned tablePrefix i generation front turn t') version t := by
  refine keeps_readLock.bind fun body v t₁ hquiet => ?_
  have h₁ := h.quietly hquiet
  have hpast₁ := Nat.le_trans hpast hquiet.onward.clock
  split
  · refine (Leased.keeps_lift_same (keeps_quiet (Invocation.passive_sleep _).quiet)).bind fun _ v t₂ hslept => ?_
    exact Leased.keeps_pure (Turned.again h₁ hpast₁ hslept.2)
  · rename_i jobId
    refine (keeps_leased (((outline ctx tablePrefix).keeps_awaitJob trivial).mono fun _ _ _ _ => trivial)).bind
      fun ended v t₂ hquiet => ?_
    split
    · exact keeps_finish hplain jobId (h₁.quietly hquiet) (Nat.le_trans hpast₁ hquiet.onward.clock)
    · exact Leased.keeps_pure (Turned.again h₁ hpast₁ hquiet)
  · exact keeps_next_advance hplain h₁ hpast₁

/-- Handing over: the marker is posted anew, or it is another one already. -/
theorem keeps_handOver (h : Working i generation front t) :
    (Subscriber.handOver ⟨tablePrefix, .ofTable tablePrefix none, decimal generation, deadline⟩).Keeps
      (env tablePrefix window i true) (fun _ t' => Finished tablePrefix i generation front t') t := by
  have hput : (Invocation.put (BackfillMarker.keyOf tablePrefix) [] (.version (decimal generation))).Keeps
      (env tablePrefix window i true) (fun _ t' => Finished tablePrefix i generation front t') t := by
    refine Invocation.keeps_store ⟨admits_of_quiet ⟨rfl, rfl⟩, fun reply t' hr result e => ?_⟩
    obtain ⟨l, hreplied⟩ := hr
    have hworking := h.quietly (hreplied.looked ⟨rfl, rfl⟩).toQuietly
    refine ⟨hworking.idle, ⟨generation, rfl, hworking.lt, fun object hobject => ?_⟩, hworking.front⟩
    obtain ⟨hfailed, -⟩ | ⟨now, -, hsite⟩ := hreplied.moves.site
    · exact absurd hfailed hreplied.timely.works
    · rw [Ledger.marker?, hsite] at hobject
      exact Store.generation_ne_of_put_version (Nat.lt_of_lt_of_le h.lt hreplied.later.next_le)
        (Nat.lt_of_lt_of_le hworking.lt hreplied.room) hobject
  have hrepost : ((BackfillMarker.ofTable tablePrefix none).repost (decimal generation)).Keeps
      (env tablePrefix window i true) (fun _ t' => Finished tablePrefix i generation front t') t := by
    refine hput.bind fun result t' hfinished => ?_
    split <;> exact Invocation.keeps_pure hfinished
  exact hrepost.bind fun _ _ hfinished => Invocation.keeps_pure hfinished

theorem keeps_turns (hplain : Plain window ctx) : ∀ (rounds : Nat) (lastPop : Duration) (version : Option String) (t : View),
    Working i generation front t → lastPop ≤ t.ledger.clock →
      (Subscriber.turns ctx ⟨tablePrefix, .ofTable tablePrefix none, decimal generation, deadline⟩ rounds lastPop).Keeps
        (env tablePrefix window i true) (.ofTable tablePrefix ctx.settings.jobPrefix)
        (fun _ _ t' => Finished tablePrefix i generation front t') version t
  | 0, _, _, _, _, _ => Leased.keeps_lift (Invocation.keeps_halt _)
  | rounds + 1, lastPop, version, t, h, hpast => by
    refine (Leased.keeps_lift_same keeps_now).bind fun time v t₁ hnow => ?_
    have hquiet := hnow.2.1.toQuietly
    have h₁ := h.quietly hquiet
    split
    · refine (keeps_turn hplain h₁ (Nat.le_trans hpast hquiet.onward.clock)).bind fun turn v t₂ hturned => ?_
      split
      · exact keeps_turns hplain rounds _ v t₂ hturned.1 hturned.2
      · exact Leased.keeps_pure hturned
    · exact Leased.keeps_lift (keeps_handOver h₁)

end Subscriber

/-! ## The whole run -/

/-- **A subscriber that has returned**: nothing is on its hands, and the backfill marker that it found is gone. -/
structure Closed (tablePrefix : String) (i : Nat) (t : View) : Prop where
  idle : t.ledger.duty i = .idle
  found : ∃ (deed : Deed) (store : Store) (found : Option ObjectInfo),
    [deed, ⟨store, .head (BackfillMarker.keyOf tablePrefix), .ok found⟩] <+: t.log ∧
      ∀ object, found = some object → Gone tablePrefix object.version t.ledger

theorem Closed.quietly (h : Closed tablePrefix i t) (hquiet : Quietly i t t') : Closed tablePrefix i t' := by
  obtain ⟨deed, store, found, hlog, hgone⟩ := h.found
  exact ⟨hquiet.idle h.idle, deed, store, found, hlog.trans hquiet.log, fun object e =>
    (hgone object e).onward hquiet.onward⟩

/-- What it found is what it has claimed. -/
theorem Closed.gone (h : Closed tablePrefix i t) {version : String} (hclaimed : claimed? tablePrefix t.log = some version) :
    Gone tablePrefix version t.ledger := by
  obtain ⟨deed, store, found, ⟨rest, hlog⟩, hgone⟩ := h.found
  rw [← hlog] at hclaimed
  cases rest with
  | nil => cases hclaimed
  | cons taken rest =>
    obtain ⟨object, hobject, hrest⟩ := Option.bind_eq_some_iff.1 hclaimed
    obtain ⟨claim, -, hversion⟩ := Option.bind_eq_some_iff.1 hrest
    cases hversion
    exact hgone object ((if_pos rfl).symm.trans hobject)

theorem keeps_start (hlog : t.log = []) (budget : Duration) : (Invocation.after budget).Keeps
    (env tablePrefix window i s) (fun _ t' => Quietly i t t' ∧ ∃ deed, t'.log = [deed]) t := by
  refine Invocation.keeps_after (admits_of_quiet ⟨rfl, rfl⟩) fun time t' hr => ?_
  obtain ⟨l, hreplied⟩ := hr
  refine ⟨(hreplied.looked ⟨rfl, rfl⟩).toQuietly, ⟨l.site.store, .now, time⟩, ?_⟩
  rw [hreplied.log, hlog]
  rfl

theorem keeps_trigger {deed : Deed} (hlog : t.log = [deed]) :
    (Invocation.head (BackfillMarker.keyOf tablePrefix)).Keeps (env tablePrefix window i s)
      (fun found t' => Quietly i t t' ∧ found = t'.ledger.site.store.head? (BackfillMarker.keyOf tablePrefix) ∧
        ∃ store, t'.log = [deed, ⟨store, .head (BackfillMarker.keyOf tablePrefix), .ok found⟩]) t := by
  refine Invocation.keeps_store ⟨admits_of_quiet ⟨rfl, rfl⟩, fun reply t' hr found e => ?_⟩
  obtain ⟨l, hreplied⟩ := hr
  refine ⟨(hreplied.looked ⟨rfl, rfl⟩).toQuietly, ?_, l.site.store, ?_⟩
  · obtain ⟨hsite, hreply | hfailed⟩ := hreplied.moves.site
    · rw [hsite]
      rw [e] at hreply
      exact (Except.ok.inj (Option.some.inj hreply)).symm
    · exact absurd hfailed hreplied.timely.works
  · rw [hreplied.log, hlog, e]
    rfl

theorem keeps_work (hplain : Plain window ctx) (hidle : t.ledger.duty i = .idle) (hlog : t.log = []) :
    (Subscriber.work ctx tablePrefix).Keeps (env tablePrefix window i true)
      (.ofTable tablePrefix ctx.settings.jobPrefix) (fun _ _ t' => Closed tablePrefix i t') none t := by
  unfold Subscriber.work
  rw [hplain.gate]
  have hbudget : (Invocation.ofExcept ctx.settings.subscriberBudget).Keeps (env tablePrefix window i true)
      (fun _ t' => t' = t) t := Invocation.keeps_ofExcept fun _ _ => rfl
  refine (Leased.keeps_lift_same hbudget).bind fun budget v t' h => ?_
  obtain ⟨rfl, rfl⟩ := h
  refine (Leased.keeps_lift_same (keeps_start hlog budget)).bind fun deadline v t₁ hstart => ?_
  obtain ⟨rfl, hquiet₁, deed, hlog₁⟩ := hstart
  refine (Leased.keeps_lift_same (keeps_trigger hlog₁)).bind fun found v t₂ htrigger => ?_
  obtain ⟨rfl, hquiet₂, hfound, store, hlog₂⟩ := htrigger
  have hidle₂ := hquiet₂.idle (hquiet₁.idle hidle)
  split
  · exact Leased.keeps_pure ⟨hidle₂, deed, store, none, hlog₂ ▸ List.prefix_rfl, nofun⟩
  · obtain ⟨object, hobject, rfl⟩ := Option.map_eq_some_iff.1 hfound.symm
    have hworking : Working i object.generation t₂.log t₂ := ⟨hidle₂, Store.generation_lt hobject, List.prefix_rfl⟩
    refine (Leased.keeps_lift_same (keeps_quiet (Claim.quiet_takeObject _))).bind fun _ v t₃ htaken => ?_
    obtain ⟨rfl, hquiet₃⟩ := htaken
    refine (Leased.keeps_lift_same keeps_now).bind fun lastPop v t₄ hnow => ?_
    obtain ⟨rfl, hlooked, rfl⟩ := hnow
    refine (keeps_turns hplain _ _ _ t₄ ((hworking.quietly hquiet₃).quietly hlooked.toQuietly) (Nat.le_refl _)).mono ?_
    intro _ _ t' hfinished
    refine ⟨hfinished.idle, deed, store, some _, hlog₂ ▸ hfinished.front, fun found e => ?_⟩
    cases e
    exact hfinished.gone

/-- **A subscriber ends with nothing on its hands, and its marker is gone.** -/
theorem keeps_run (hplain : Plain window ctx) (hidle : t.ledger.duty i = .idle) (hlog : t.log = []) :
    (Subscriber.run ctx tablePrefix).Keeps (env tablePrefix window i true) (fun _ t' => Closed tablePrefix i t') t := by
  refine Invocation.Keeps.bind (keeps_work hplain hidle hlog).life fun outcome t' hclosed => ?_
  obtain ⟨-, hclosed⟩ := hclosed
  refine (keeps_quiet (Invocation.passive_count _).quiet).bind fun _ t'' hquiet => ?_
  exact Invocation.keeps_pure (hclosed.quietly hquiet)

end Upkeep
end Intake
