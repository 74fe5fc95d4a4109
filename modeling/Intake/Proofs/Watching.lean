import Intake.Proofs.Modest
import Intake.Proofs.Upkeep
/-!
# Watching — a monitor does not let go of a pointer

Most calls are quiet: they push nothing and leave the backfill marker where it is, and after each of them a member has on
its hands what it had, or less.  A monitor has waited for its time when it looks for the backfill marker; if it finds it,
the pointer of its enqueuing is seen to, and else it posts the marker.  A marker that it deletes as abandoned it posts
again.
-/
namespace Intake

/-- The call pushes nothing, and does not delete the backfill marker. -/
structure CloudCall.IsQuiet (tablePrefix : String) (c : CloudCall) : Prop where
  push : c.isPush tablePrefix = false
  clear : c.isClear tablePrefix = false

theorem CloudCall.IsLoading.isQuiet {c : CloudCall} (h : c.IsLoading) (tablePrefix : String) : c.IsQuiet tablePrefix := by
  cases c <;> first | exact h.elim | exact ⟨rfl, rfl⟩

theorem CloudCall.IsPassive.isQuiet {c : CloudCall} (h : c.IsPassive) (tablePrefix : String) : c.IsQuiet tablePrefix :=
  h.isLoading.isQuiet tablePrefix

theorem Invocation.Only.quiet {α : Type} {x : Invocation α} {tablePrefix : String} (h : x.Only CloudCall.IsPassive) :
    x.Only (CloudCall.IsQuiet tablePrefix) :=
  h.mono fun _ hc => hc.isQuiet tablePrefix

theorem Claim.quiet_takeObject {tablePrefix : String} (object : ObjectInfo) :
    (takeObject object).Only (CloudCall.IsQuiet tablePrefix) :=
  only_takeObject ⟨rfl, rfl⟩

theorem Claim.quiet_take {tablePrefix : String} (marker : String) :
    (take marker).Only (CloudCall.IsQuiet tablePrefix) :=
  only_take ⟨rfl, rfl⟩ fun _ => ⟨rfl, rfl⟩

theorem Store.exists_get?_put_absent (store : Store) (key : String) (body : Octets) (now : Timestamp) :
    ∃ object, (store.put key body .absent now).2.get? key = some object := by
  cases hget : store.get? key with
  | none =>
    have hput : store.put key body .absent now = (.written (decimal store.nextGeneration), store.write key body now) := by
      rw [put, hget, refuses?]
    exact ⟨_, by rw [hput]; exact get?_write_self ..⟩
  | some object =>
    have hput : store.put key body .absent now = (.conflict (decimal object.generation), store) := by
      rw [put, hget, refuses?]
    exact ⟨object, by rw [hput]; exact hget⟩

namespace Upkeep

variable {tablePrefix : String} {window : Duration} {i : Nat} {s : Bool} {t t' t'' : View}

/-! ## Quiet calls -/

/-- Nothing was pushed, and the backfill marker was not deleted. -/
structure Quietly (i : Nat) (t t' : View) : Prop where
  onward : t.ledger.Onward t'.ledger
  duty : t'.ledger.duty i = t.ledger.duty i ∨ t'.ledger.duty i = .idle
  since : t.since ≤ t'.since
  log : t.log <+: t'.log

theorem Quietly.refl (i : Nat) (t : View) : Quietly i t t :=
  ⟨.refl _, .inl rfl, Nat.le_refl _, List.prefix_rfl⟩

theorem Quietly.trans (h : Quietly i t t') (h' : Quietly i t' t'') : Quietly i t t'' where
  onward := h.onward.trans h'.onward
  duty := by
    obtain hsame | hidle := h'.duty
    · rw [hsame]
      exact h.duty
    · exact .inr hidle
  since := Nat.le_trans h.since h'.since
  log := h.log.trans h'.log

theorem Quietly.idle (h : Quietly i t t') (hidle : t.ledger.duty i = .idle) : t'.ledger.duty i = .idle := by
  obtain hsame | hidle' := h.duty
  · exact hsame.trans hidle
  · exact hidle'

/-- **After one quiet call** a member has nothing on its hands, if the backfill marker sees to what it had. -/
structure Looked (tablePrefix : String) (window : Duration) (i : Nat) (t t' : View) : Prop extends Quietly i t t' where
  clock : t'.since = t'.ledger.clock
  relief : (∀ generation time, t'.ledger.Has tablePrefix generation time →
    (t.ledger.duty i).Covers window t'.ledger.clock generation time →
    t'.ledger.Kept tablePrefix window generation time) → t'.ledger.duty i = .idle

section Calls

variable {c : CloudCall} {l : Ledger} {reply : c.Reply}

theorem Replied.onward (h : Replied tablePrefix window i s c t l reply t') : t.ledger.Onward t'.ledger :=
  h.later.toOnward.trans (h.moves.onward h.sound)

theorem Replied.since_le (h : Replied tablePrefix window i s c t l reply t') : t.since ≤ t'.since := h.since ▸ h.clock

theorem Replied.since_eq (h : Replied tablePrefix window i s c t l reply t') : t'.since = t'.ledger.clock :=
  h.since.trans h.moves.clock.symm

theorem Replied.isPrefix (h : Replied tablePrefix window i s c t l reply t') : t.log <+: t'.log := ⟨_, h.log.symm⟩

theorem Replied.looked (h : Replied tablePrefix window i s c t l reply t') (hc : c.IsQuiet tablePrefix) :
    Looked tablePrefix window i t t' where
  onward := h.onward
  duty := by
    obtain ⟨-, hidle⟩ | ⟨-, hgains⟩ := h.moves.duty
    · exact .inr hidle
    · refine .inl (hgains.trans ?_)
      rw [Ledger.gains, hc.push, hc.clear]
      exact h.later.duty
  since := h.since_le
  log := h.isPrefix
  clock := h.since_eq
  relief hkept := by
    refine h.moves.idle h.sound hc.push (fun _ _ hhas => h.moves.kept hc.clear hhas) fun generation time hhas hcovers => ?_
    rw [h.later.duty] at hcovers
    exact hkept generation time hhas hcovers

theorem admits_of_quiet (hc : c.IsQuiet tablePrefix) : (env tablePrefix window i s).admits c t := by
  refine fun l _ _ => ⟨fun hpush => ?_, fun precondition _ hclear => ?_⟩
  · rw [hc.push] at hpush
    cases hpush
  · have := hc.clear
    rw [Ledger.isClear_iff.2 ⟨precondition, hclear⟩] at this
    cases this

end Calls

theorem keeps_quiet {α : Type} {x : Invocation α} (hx : x.Only (CloudCall.IsQuiet tablePrefix)) :
    x.Keeps (env tablePrefix window i s) (fun _ t' => Quietly i t t') t := by
  refine hx.keeps (fun _ _ hc _ => admits_of_quiet hc) (fun _ _ _ _ hc hquiet hr => ?_) (.refl i t)
  obtain ⟨l, hreplied⟩ := hr
  exact hquiet.trans (hreplied.looked hc).toQuietly

theorem keeps_now : Invocation.now.Keeps (env tablePrefix window i s)
    (fun time t' => Looked tablePrefix window i t t' ∧ time = t'.ledger.clock) t := by
  refine Invocation.keeps_ask (admits_of_quiet ⟨rfl, rfl⟩) fun time t' hr => ?_
  obtain ⟨l, hreplied⟩ := hr
  exact ⟨hreplied.looked ⟨rfl, rfl⟩, hreplied.timely.trans hreplied.moves.clock.symm⟩

theorem keeps_sleep (span : Duration) : (Invocation.sleep span).Keeps (env tablePrefix window i s)
    (fun _ t' => Quietly i t t' ∧ t.since + span ≤ t'.since) t := by
  refine Invocation.keeps_ask (admits_of_quiet ⟨rfl, rfl⟩) fun _ t' hr => ?_
  obtain ⟨l, hreplied⟩ := hr
  exact ⟨(hreplied.looked ⟨rfl, rfl⟩).toQuietly, hreplied.since ▸ hreplied.timely⟩

theorem keeps_head : (Invocation.head (BackfillMarker.keyOf tablePrefix)).Keeps (env tablePrefix window i s)
    (fun found t' => Looked tablePrefix window i t t' ∧
      found = t'.ledger.site.store.head? (BackfillMarker.keyOf tablePrefix)) t := by
  refine Invocation.keeps_store ⟨admits_of_quiet ⟨rfl, rfl⟩, fun reply t' hr found e => ?_⟩
  obtain ⟨l, hreplied⟩ := hr
  refine ⟨hreplied.looked ⟨rfl, rfl⟩, ?_⟩
  obtain ⟨hsite, hreply | hfailed⟩ := hreplied.moves.site
  · rw [hsite]
    rw [e] at hreply
    exact (Except.ok.inj (Option.some.inj hreply)).symm
  · exact absurd hfailed hreplied.timely.works

theorem keeps_next : (Backlog.next tablePrefix).Keeps (env tablePrefix window i s)
    (fun first t' => Looked tablePrefix window i t t' ∧ first = (t'.ledger.site.store.pointers tablePrefix).head?) t := by
  have hlist : (Invocation.list (Backlog.folder tablePrefix) none).Keeps (env tablePrefix window i s)
      (fun listing t' => Looked tablePrefix window i t t' ∧
        listing = t'.ledger.site.store.list (Backlog.folder tablePrefix) none) t := by
    refine Invocation.keeps_store ⟨admits_of_quiet ⟨rfl, rfl⟩, fun reply t' hr listing e => ?_⟩
    obtain ⟨l, hreplied⟩ := hr
    refine ⟨hreplied.looked ⟨rfl, rfl⟩, ?_⟩
    obtain ⟨hsite, hreply | hfailed⟩ := hreplied.moves.site
    · rw [hsite]
      rw [e] at hreply
      exact (Except.ok.inj (Option.some.inj hreply)).symm
    · exact absurd hfailed hreplied.timely.works
  refine hlist.bind fun listing t' h => Invocation.keeps_pure ⟨h.1, ?_⟩
  rw [h.2, Store.pointers_eq_list, List.head?_map]

/-- In an empty backlog nothing is to be seen to. -/
theorem not_has_of_head?_eq_none {l : Ledger} (h : none = (l.site.store.pointers tablePrefix).head?) {generation : Nat}
    {time : Duration} : ¬ l.Has tablePrefix generation time := by
  rintro ⟨key, object, hkey, hobject, -⟩
  have hmem : key ∈ l.site.store.pointers tablePrefix :=
    List.mem_filter.2 ⟨List.mem_map.2 ⟨(key, object), Fields.mem_of_get? hobject, rfl⟩, hkey⟩
  rw [List.head?_eq_none_iff.1 h.symm] at hmem
  cases hmem

/-- Posting the backfill marker: after that it is there. -/
theorem keeps_post : (BackfillMarker.ofTable tablePrefix none).post.Keeps (env tablePrefix window i s)
    (fun _ t' => Looked tablePrefix window i t t' ∧ ∃ object, t'.ledger.marker? tablePrefix = some object) t := by
  have hput : (Invocation.put (BackfillMarker.keyOf tablePrefix) [] .absent).Keeps (env tablePrefix window i s)
      (fun _ t' => Looked tablePrefix window i t t' ∧ ∃ object, t'.ledger.marker? tablePrefix = some object) t := by
    refine Invocation.keeps_store ⟨admits_of_quiet ⟨rfl, rfl⟩, fun reply t' hr result e => ?_⟩
    obtain ⟨l, hreplied⟩ := hr
    refine ⟨hreplied.looked ⟨rfl, rfl⟩, ?_⟩
    obtain ⟨hfailed, -⟩ | ⟨now, -, hsite⟩ := hreplied.moves.site
    · exact absurd hfailed hreplied.timely.works
    · rw [Ledger.marker?, hsite]
      exact Store.exists_get?_put_absent ..
  refine hput.bind fun result t' h => ?_
  split <;> exact Invocation.keeps_pure h

/-! ## Deleting the backfill marker -/

/-- **What comes of deleting the backfill marker of a generation**: another one is there, and a member that needs nothing
more has nothing on its hands; or none is there, and the member has to see to it. -/
structure Cleared (tablePrefix : String) (window : Duration) (i : Nat) (s : Bool) (generation : Nat) (t : View)
    (result : DeleteResult) (t' : View) : Prop where
  onward : t.ledger.Onward t'.ledger
  since : t.since ≤ t'.since
  log : t.log <+: t'.log
  refused : ∀ current, result = .conflict current →
    (∃ object, t'.ledger.marker? tablePrefix = some object ∧ object.generation ≠ generation) ∧
    ((∀ generation time, t'.ledger.Has tablePrefix generation time →
      (t.ledger.duty i).Covers window t'.ledger.clock generation time →
      t'.ledger.Kept tablePrefix window generation time) → t'.ledger.duty i = .idle)
  done : (∀ current, result ≠ .conflict current) → t'.ledger.marker? tablePrefix = none ∧
    (t'.ledger.duty i = .idle ∨
      t'.ledger.duty i = if s then .rechecking t'.ledger.next else .replacing t'.ledger.next)

theorem keeps_clear {generation : Nat} (hlt : generation < t.ledger.next)
    (hadmits : (env tablePrefix window i s).admits
      (.delete (BackfillMarker.keyOf tablePrefix) (.version (decimal generation))) t) :
    (Invocation.delete (BackfillMarker.keyOf tablePrefix) (.version (decimal generation))).Keeps
      (env tablePrefix window i s) (fun result t' => Cleared tablePrefix window i s generation t result t') t := by
  refine Invocation.keeps_store ⟨hadmits, fun reply t' hr result e => ?_⟩
  obtain ⟨l, hreplied⟩ := hr
  have hclear : CloudCall.isClear tablePrefix
      (.delete (BackfillMarker.keyOf tablePrefix) (.version (decimal generation))) = true := beq_self_eq_true _
  obtain ⟨hfailed, -⟩ | ⟨hreply, hsite⟩ := hreplied.moves.site
  · exact absurd hfailed hreplied.timely.works
  have hresult : result = (l.site.store.delete (BackfillMarker.keyOf tablePrefix) (.version (decimal generation))).1 :=
    Except.ok.inj (e.symm.trans hreply)
  refine ⟨hreplied.onward, hreplied.since_le, hreplied.isPrefix, fun current hconflict => ?_, fun hdone => ?_⟩
  · -- the marker is there, and is of another generation
    obtain ⟨object, hobject, hrefused, hstore⟩ := Store.delete_eq_conflict (hresult.symm.trans hconflict)
    have hsame : t'.ledger.site = l.site := by rw [hsite, hstore]
    have hother : object.generation ≠ generation := by
      rintro rfl
      have hroom : object.generation < 2 ^ 63 :=
        Nat.lt_of_lt_of_le (Nat.lt_of_lt_of_le hlt hreplied.onward.next_le) hreplied.room
      rw [Store.refuses?, Store.isVersion_decimal hroom] at hrefused
      cases hrefused
    have hmarker : t'.ledger.marker? tablePrefix = some object := by rw [Ledger.marker?, hsame]; exact hobject
    refine ⟨⟨object, hmarker, hother⟩, fun hown => ?_⟩
    refine hreplied.moves.idle hreplied.sound rfl ?_ fun generation time hhas hcovers => ?_
    · rintro generation time - ⟨found, hfound, hkept⟩
      refine ⟨found, ?_, by rw [hreplied.moves.clock]; exact hkept⟩
      rw [Ledger.marker?, hsame]
      exact hfound
    · rw [hreplied.later.duty] at hcovers
      exact hown generation time hhas hcovers
  · have hstore : t'.ledger.site.store.get? (BackfillMarker.keyOf tablePrefix) = none ∧ t'.ledger.next = l.next := by
      rw [Ledger.next, Ledger.next, hsite]
      exact Store.get?_delete_self fun current e => hdone current (hresult.trans e)
    refine ⟨hstore.1, ?_⟩
    obtain ⟨-, hidle⟩ | ⟨-, hgains⟩ := hreplied.moves.duty
    · exact .inl hidle
    · have hpush : CloudCall.isPush tablePrefix
          (.delete (BackfillMarker.keyOf tablePrefix) (.version (decimal generation))) = false := rfl
      rw [Ledger.gains, hpush, if_neg Bool.false_ne_true, if_pos hclear, ← hstore.2] at hgains
      exact .inr hgains

/-! ## Monitors -/

/-- The member has nothing on its hands, or a pointer that was pushed so long ago. -/
def Owes (i : Nat) (delay : Duration) (t : View) : Prop :=
  t.ledger.duty i = .idle ∨ ∃ generation time, t.ledger.duty i = .pointer generation ∧ generation < t.ledger.next ∧
    t.ledger.pushed generation = some time ∧ time + delay ≤ t.since

theorem Owes.wait {delay span : Duration} (h : Owes i delay t) (hquiet : Quietly i t t')
    (hspan : t.since + span ≤ t'.since) : Owes i (delay + span) t' := by
  obtain hidle | ⟨generation, time, hduty, hlt, hpushed, htime⟩ := h
  · exact .inl (hquiet.idle hidle)
  · obtain hsame | hidle := hquiet.duty
    · refine .inr ⟨generation, time, hsame.trans hduty, Nat.lt_of_lt_of_le hlt hquiet.onward.next_le,
        (hquiet.onward.pushed generation hlt).trans hpushed, ?_⟩
      calc time + (delay + span) = time + delay + span := (Nat.add_assoc ..).symm
        _ ≤ t.since + span := Nat.add_le_add_right htime span
        _ ≤ t'.since := hspan
    · exact .inl hidle

theorem Owes.quietly {delay : Duration} (h : Owes i delay t) (hquiet : Quietly i t t') : Owes i delay t' :=
  have hspan : t.since + 0 ≤ t'.since := hquiet.since
  h.wait hquiet hspan

/-- The backfill marker is not there, or it is not older than this. -/
def Barred (tablePrefix : String) (generation : Nat) (l : Ledger) : Prop :=
  generation ≤ l.next ∧ ∀ object, l.marker? tablePrefix = some object → generation ≤ object.generation

theorem Barred.onward {l l' : Ledger} {generation : Nat} (h : Barred tablePrefix generation l) (hon : l.Onward l') :
    Barred tablePrefix generation l' := by
  refine ⟨Nat.le_trans h.1 hon.next_le, fun object hobject => ?_⟩
  obtain hold | hnew := hon.marker hobject
  · exact h.2 object hold
  · exact Nat.le_trans h.1 hnew

/-- As soon as the member sees the backfill marker, it has nothing on its hands. -/
def Settles (tablePrefix : String) (window : Duration) (i : Nat) (t : View) : Prop :=
  ∀ t', Looked tablePrefix window i t t' → (∃ object, t'.ledger.marker? tablePrefix = some object) →
    t'.ledger.duty i = .idle

/-- **A monitor that has waited is done when it sees the backfill marker.** -/
theorem Owes.settles (h : Owes i window t) : Settles tablePrefix window i t := by
  rintro t' hlooked ⟨object, hobject⟩
  refine hlooked.relief fun generation time hhas hcovers => ⟨object, hobject, .inr ?_⟩
  obtain hidle | ⟨own, pushedAt, hduty, hlt, hpushed, htime⟩ := h
  · rw [hidle] at hcovers
    exact hcovers.elim
  · rw [hduty] at hcovers
    obtain rfl : generation = own := hcovers
    obtain ⟨_, _, -, -, -, hnoted⟩ := hhas
    rw [hlooked.onward.pushed generation hlt, hpushed] at hnoted
    cases hnoted
    rw [← hlooked.clock]
    exact Nat.le_trans htime hlooked.since

/-- A member that found no backfill marker is done when one is posted. -/
theorem Barred.settles {generation : Nat} (h : Barred tablePrefix generation t.ledger)
    (hduty : t.ledger.duty i = .idle ∨ t.ledger.duty i = .replacing generation ∨
      t.ledger.duty i = .rechecking generation) : Settles tablePrefix window i t := by
  rintro t' hlooked ⟨object, hobject⟩
  refine hlooked.relief fun own time hhas hcovers => ⟨object, hobject, .inl ?_⟩
  refine Nat.lt_of_lt_of_le ?_ ((h.onward hlooked.onward).2 object hobject)
  obtain hduty | hduty | hduty := hduty <;> rw [hduty] at hcovers
  · exact hcovers.elim
  · exact hcovers
  · exact hcovers.1

theorem keeps_repost (reason : String) (h : Settles tablePrefix window i t) :
    (Monitor.repost (.ofTable tablePrefix none) reason).Keeps (env tablePrefix window i s)
      (fun _ t' => t'.ledger.duty i = .idle) t := by
  refine keeps_post.bind fun outcome t' hposted => ?_
  have hidle := h t' hposted.1 hposted.2
  split
  · refine (keeps_quiet (Invocation.passive_count _).quiet).bind fun _ t'' hquiet => ?_
    exact Invocation.keeps_pure (hquiet.idle hidle)
  · exact Invocation.keeps_pure hidle
  · exact Invocation.keeps_pure hidle

theorem keeps_appears (deadline interval : Duration) : ∀ (rounds : Nat) (t : View), Owes i window t →
    (Monitor.appears (.ofTable tablePrefix none) deadline interval rounds).Keeps (env tablePrefix window i s)
      (fun found t' => Owes i window t' ∧ (found = true → t'.ledger.duty i = .idle)) t
  | 0, _, _ => Invocation.keeps_halt _
  | rounds + 1, t, h => by
    refine keeps_head.bind fun found t' hfound => ?_
    obtain ⟨hlooked, rfl⟩ := hfound
    have howes := h.quietly hlooked.toQuietly
    split
    · rename_i hfound
      obtain ⟨object, hobject, -⟩ := Option.map_eq_some_iff.1 hfound
      exact Invocation.keeps_pure ⟨howes, fun _ => h.settles t' hlooked ⟨object, hobject⟩⟩
    · refine keeps_now.bind fun time t₁ htime => ?_
      have howes := howes.quietly htime.1.toQuietly
      split
      · exact Invocation.keeps_pure ⟨howes, nofun⟩
      · refine (keeps_quiet (Invocation.passive_sleep _).quiet).bind fun _ t₂ hquiet => ?_
        exact keeps_appears deadline interval rounds t₂ (howes.quietly hquiet)

variable {ctx : Context}

theorem keeps_watch (hplain : Plain window ctx) (h : Owes i 0 t) :
    (Monitor.watch ctx tablePrefix (.ofTable tablePrefix none)).Keeps (env tablePrefix window i s)
      (fun _ t' => t'.ledger.duty i = .idle) t := by
  unfold Monitor.watch
  rw [hplain.wait]
  refine (keeps_sleep window).bind fun _ t₁ hslept => ?_
  have howes : Owes i window t₁ := by
    have := h.wait hslept.1 hslept.2
    rwa [Nat.zero_add] at this
  refine (keeps_quiet (Invocation.passive_after window).quiet).bind fun deadline t₂ hquiet => ?_
  refine (keeps_appears _ _ _ t₂ (howes.quietly hquiet)).bind fun found t₃ hfound => ?_
  split
  · rename_i hthere
    exact Invocation.keeps_pure (hfound.2 hthere)
  · refine keeps_next.bind fun first t₄ hfirst => ?_
    obtain ⟨hlooked, hfirst⟩ := hfirst
    split
    · exact Invocation.keeps_pure (hlooked.relief fun _ _ hhas => absurd hhas (not_has_of_head?_eq_none hfirst))
    · exact keeps_repost _ (hfound.1.quietly hlooked.toQuietly).settles

/-- A backfill marker of another generation than the one that was seen is younger than the member's pointer. -/
theorem Owes.refused {generation : Nat} {result : DeleteResult} {current : String} (h : Owes i 0 t)
    (hseen : ∀ object, t.ledger.marker? tablePrefix = some object → object.generation = generation)
    (hquiet : Quietly i t t') (hcleared : Cleared tablePrefix window i s generation t' result t'')
    (hresult : result = .conflict current) : t''.ledger.duty i = .idle := by
  obtain ⟨⟨object, hobject, hother⟩, hrelief⟩ := hcleared.refused current hresult
  refine hrelief fun own time hhas hcovers => ⟨object, hobject, .inl ?_⟩
  have hnew : t.ledger.next ≤ object.generation := by
    obtain hold | hnew := (hquiet.onward.trans hcleared.onward).marker hobject
    · exact absurd (hseen object hold) hother
    · exact hnew
  obtain hidle | ⟨pointer, _, hduty, hlt, -⟩ := h
  · rw [hquiet.idle hidle] at hcovers
    exact hcovers.elim
  · obtain hsame | hidle := hquiet.duty
    · rw [hsame, hduty] at hcovers
      obtain rfl : own = pointer := hcovers
      exact Nat.lt_of_lt_of_le hlt hnew
    · rw [hidle] at hcovers
      exact hcovers.elim

/-- **A monitor ends with nothing on its hands.** -/
theorem keeps_ensureSubscriber (hplain : Plain window ctx) (h : Owes i 0 t) :
    (Monitor.ensureSubscriber ctx tablePrefix).Keeps (env tablePrefix window i false)
      (fun _ t' => t'.ledger.duty i = .idle) t := by
  unfold Monitor.ensureSubscriber
  rw [hplain.gate]
  refine keeps_head.bind fun found t₁ hfound => ?_
  obtain ⟨hlooked, hfound⟩ := hfound
  have howes := h.quietly hlooked.toQuietly
  split
  · exact keeps_watch hplain howes
  · rename_i existing
    obtain ⟨object, hobject, rfl⟩ := Option.map_eq_some_iff.1 hfound.symm
    refine (keeps_quiet (Invocation.only_ask ⟨rfl, rfl⟩)).bind fun instant t₂ hquiet => ?_
    split
    · have hlt : object.generation < t₂.ledger.next :=
        Nat.lt_of_lt_of_le (Store.generation_lt hobject) hquiet.onward.next_le
      have hadmits : (env tablePrefix window i false).admits
          (.delete (BackfillMarker.keyOf tablePrefix) (.version (decimal object.generation))) t₂ :=
        fun l _ _ => ⟨nofun, nofun⟩
      refine (keeps_clear hlt hadmits).bind fun result t₃ hcleared => ?_
      split
      · refine Invocation.keeps_pure (howes.refused (fun found hfound => ?_) hquiet hcleared rfl)
        rw [Ledger.marker?, hobject, Option.some.injEq] at hfound
        rw [← hfound]
      · rename_i hne
        obtain ⟨hnone, hduty⟩ := hcleared.done hne
        refine keeps_repost _ (Barred.settles ⟨Nat.le_refl _, fun found hfound => ?_⟩ (hduty.imp_right .inl))
        rw [hnone] at hfound
        cases hfound
    · exact keeps_watch hplain (howes.quietly hquiet)

/-! ## Enqueuings -/

/-- Pushing a pointer: the member has it on its hands. -/
theorem keeps_push (marker : String) (h : t.ledger.duty i = .idle) :
    (Backlog.push tablePrefix marker).Keeps (env tablePrefix window i s) (fun _ t' => Owes i 0 t') t := by
  have hpointer : (Invocation.ofExcept (Backlog.pointerFor tablePrefix marker)).Keeps (env tablePrefix window i s)
      (fun pointer t' => t' = t ∧ startsWith (Backlog.folder tablePrefix) pointer = true) t := by
    refine Invocation.keeps_ofExcept fun pointer e => ⟨rfl, ?_⟩
    obtain ⟨rest, -, -, rfl⟩ := Backlog.pointerFor_eq_ok e
    exact startsWith_iff.2 ⟨rest, rfl⟩
  refine hpointer.bind fun pointer t₁ hin => ?_
  obtain ⟨rfl, hpush⟩ := hin
  have hpush : CloudCall.isPush tablePrefix (.put pointer [] .always) = true := hpush
  have hput : (Invocation.put pointer [] .always).Keeps (env tablePrefix window i s) (fun _ t' => Owes i 0 t') t₁ := by
    refine Invocation.keeps_store ⟨fun l hlater _ => ⟨fun _ => hlater.duty.trans h, nofun⟩, fun reply t' hr _ _ => ?_⟩
    obtain ⟨l, hreplied⟩ := hr
    obtain ⟨-, hidle⟩ | ⟨-, hgains⟩ := hreplied.moves.duty
    · exact .inl hidle
    · rw [Ledger.gains, if_pos hpush] at hgains
      refine .inr ⟨l.next, l.clock, hgains, ?_, ?_, Nat.le_of_eq hreplied.since.symm⟩
      · obtain ⟨hfailed, -⟩ | ⟨now, -, hsite⟩ := hreplied.moves.site
        · exact absurd hfailed hreplied.timely.works
        · rw [Ledger.next, Ledger.next, hsite]
          exact Nat.lt_succ_self _
      · rw [hreplied.moves.pushed, if_pos hpush, Function.update_self]
  exact hput.bind fun _ _ howes => Invocation.keeps_pure howes

/-- **An enqueuing ends with nothing on its hands.** -/
theorem keeps_enqueue {marker : String} (hplain : Plain window ctx)
    (htable : ctx.layout.tablePrefix marker = .ok tablePrefix) (h : t.ledger.duty i = .idle) :
    (do Monitor.ensureSubscriber ctx (← enqueue ctx marker).tablePrefix : Invocation MonitorOutcome).Keeps
      (env tablePrefix window i false) (fun _ t' => t'.ledger.duty i = .idle) t := by
  have henqueue : (enqueue ctx marker).Keeps (env tablePrefix window i false)
      (fun enqueued t' => enqueued.tablePrefix = tablePrefix ∧ Owes i 0 t') t := by
    unfold enqueue
    rw [htable, hplain.gate]
    have hfound : (Invocation.ofExcept (.ok tablePrefix)).Keeps (env tablePrefix window i false)
        (fun found t' => found = tablePrefix ∧ t' = t) t := Invocation.keeps_ofExcept fun _ e => ⟨(Except.ok.inj e).symm, rfl⟩
    refine hfound.bind ?_
    rintro _ _ ⟨rfl, rfl⟩
    refine (keeps_quiet (Claim.quiet_take marker)).bind fun _ t₁ hquiet => ?_
    refine (keeps_push marker (hquiet.idle h)).bind fun pointer t₂ howes => ?_
    refine (keeps_quiet (Invocation.passive_count _).quiet).bind fun _ t₃ hquiet => ?_
    refine keeps_post.bind fun _ t₄ hposted => Invocation.keeps_pure ⟨rfl, ?_⟩
    exact (howes.quietly hquiet).quietly hposted.1.toQuietly
  refine henqueue.bind fun enqueued t' hs => ?_
  rw [hs.1]
  exact keeps_ensureSubscriber hplain hs.2

end Upkeep
end Intake
