import Intake.Proofs.Dispatching
import Intake.Proofs.Trial
/-!
# Frame — what a notification leaves alone

A notification is about one table.  Handling it changes objects of the engine at the table prefix and in the backlog of
the table, and creates at most one claim beside the object that it is about.  Everything else stays as it is, whichever
way the handling ends and wherever it is cut off.  Where a batch is applied at once, the claim is all that is written.
-/
namespace Intake

/-- The call writes and deletes only objects under such keys. -/
def CloudCall.Within (own : String → Prop) : CloudCall → Prop
  | .put key _ _ | .delete key _ => own key
  | _ => True

theorem CloudCall.IsLoading.within {c : CloudCall} {own : String → Prop} (h : c.IsLoading) : c.Within own := by
  cases c <;> trivial

theorem CloudCall.IsPassive.within {c : CloudCall} {own : String → Prop} (h : c.IsPassive) : c.Within own :=
  h.isLoading.within

namespace Frame

open Invocation

/-- The engine keeps something of the table under the key. -/
def Own (tablePrefix key : String) : Prop :=
  key = BackfillMarker.keyOf tablePrefix ∨ key = TableLock.keyOf tablePrefix ∨
    startsWith (Backlog.folder tablePrefix) key = true

/-- The call is within such keys, or it is the first to change anything and creates a claim. -/
def Ok (own : String → Prop) (marker : String) (start : Site) (c : CloudCall) (site : Site) : Prop :=
  c.Within own ∨ site = start ∧ ∃ created, c = .put (Claim.key marker created) [] .absent

/-- **What is outside such keys is as it was**, but for a claim that was not there before. -/
def Framed (own : String → Prop) (marker : String) (start site : Site) : Prop :=
  ∃ created, ∀ key, ¬ own key → site.store.get? key = start.store.get? key ∨
    key = Claim.key marker created ∧ start.store.get? key = none ∧
      ∃ object, site.store.get? key = some object ∧ object.body = []

section Framed

variable {own : String → Prop} {marker : String} {start site site' : Site} {c : CloudCall} {reply : c.Reply}

theorem Framed.refl (own : String → Prop) (marker : String) (start : Site) : Framed own marker start start :=
  ⟨.ofNanos 0, fun _ _ => .inl rfl⟩

/-- **A call of this kind keeps the frame.** -/
theorem Framed.call (hc : Ok own marker start c site) (hanswers : Site.Answers c site reply site')
    (h : Framed own marker start site) : Framed own marker start site' := by
  rcases hc with hwithin | ⟨rfl, created, rfl⟩
  · obtain ⟨created, h⟩ := h
    refine ⟨created, fun key hkey => ?_⟩
    have hsame : site'.store.get? key = site.store.get? key := by
      obtain hsame | ⟨body, precondition, now, rfl, -⟩ | ⟨precondition, rfl, -⟩ := hanswers.get?_cases key
      · exact hsame
      · exact absurd hwithin hkey
      · exact absurd hwithin hkey
    rw [hsame]
    exact h key hkey
  · -- nothing was changed before the claim, so everything else is as it was
    obtain ⟨rfl, -⟩ | ⟨-, hfree, now, rfl⟩ := hanswers.put_cases
    · exact .refl _ _ _
    · refine ⟨created, fun key _ => ?_⟩
      by_cases hkey : key = Claim.key marker created
      · subst hkey
        exact .inr ⟨rfl, Store.eq_none_of_refuses?_absent hfree, _, Store.get?_write_self .., rfl⟩
      · exact .inl (Store.get?_write_of_ne _ _ _ hkey)

end Framed

/-! ## The calls of a notification -/

section Keeps

variable {own : String → Prop} {marker : String} {start s : Site} {ctx : Context} {n : Notification}

abbrev env (own : String → Prop) (marker : String) (start : Site) : Surroundings Cloud Site :=
  Site.undisturbed (Ok own marker start)

theorem keeps_passive {α : Type} {x : Invocation α} (hx : x.Only CloudCall.IsPassive) (hs : s = start) :
    x.Keeps (env own marker start) (fun _ s => s = start) s :=
  hx.keeps (fun _ _ hc _ => .inl hc.within) (fun _ _ _ _ hc hs hr => (Site.Answers.eq_of_isPassive hr hc).trans hs) hs

theorem keeps_head (key : String) (hs : s = start) : (Invocation.head key).Keeps (env own marker start)
    (fun found s => s = start ∧ ∀ object, found = some object → object.key = key) s := by
  refine keeps_store ⟨.inl trivial, fun reply t hr found e => ?_⟩
  have hanswers : Site.Answers (.head key) s reply t := hr
  refine ⟨(hanswers.eq_of_isPassive trivial).trans hs, ?_⟩
  rintro object rfl
  exact hanswers.key_of_head e

theorem keeps_reads {α : Type} {x : Invocation α} (hx : x.Reads) :
    x.Keeps (env own marker start) (fun a t => t = s ∧ s.store.gives x = some a) s := by
  have hadmits : ∀ c t, CloudCall.IsReading c → t = s → (env own marker start).admits c t :=
    fun _ _ hc _ => .inl hc.isPassive.within
  refine hx.keeps hadmits (fun c t reply t' hc ht hr => ?_) rfl
  have hanswers : Site.Answers c t reply t' := hr
  subst ht
  exact ⟨hanswers.eq_of_isPassive hc.isPassive, hanswers.reply?_eq hc⟩

/-- A claim is the first thing that is written. -/
theorem keeps_takeObject {object : ObjectInfo}
    (hkey : ∀ created, Claim.key object.key created = Claim.key marker created) (hs : s = start) :
    (Claim.takeObject object).Keeps (env own marker start) (fun _ _ => True) s := by
  have hput : (Invocation.put (Claim.key object.key object.created) [] .absent).Keeps (env own marker start)
      (fun _ _ => True) s :=
    keeps_store ⟨.inr ⟨hs, object.created, by rw [hkey]⟩, fun _ _ _ _ _ => trivial⟩
  refine hput.bind fun result s _ => ?_
  split
  · exact keeps_pure trivial
  · exact keeps_throw _

theorem keeps_take (hs : s = start) : (Claim.take marker).Keeps (env own marker start) (fun _ _ => True) s := by
  refine (keeps_head marker hs).bind fun found s h => ?_
  split
  · exact keeps_throw _
  · exact (keeps_takeObject (fun _ => by rw [h.2 _ rfl]) h.1).bind fun _ _ _ => keeps_pure trivial

theorem keeps_pop {tablePrefix : String} (hown : ∀ key, startsWith (Backlog.folder tablePrefix) key = true → own key) :
    (Backlog.pop tablePrefix).Keeps (env own marker start) (fun _ _ => True) s := by
  have hnext : (Backlog.next tablePrefix).Keeps (env own marker start) (fun first _ => ∀ pointer, first = some pointer →
      startsWith (Backlog.folder tablePrefix) pointer = true) s := by
    refine (keeps_reads (Backlog.reads_next tablePrefix)).mono ?_
    rintro first t ⟨-, hgives⟩ pointer rfl
    rw [Store.gives_next, Option.some.injEq] at hgives
    exact Store.startsWith_of_mem_pointers (List.mem_of_head? hgives)
  refine hnext.bind fun first s hfirst => ?_
  split
  · exact keeps_pure trivial
  · rename_i pointer
    have hdelete : (Invocation.delete pointer .always).Keeps (env own marker start) (fun _ _ => True) s :=
      keeps_store ⟨.inl (hown pointer (hfirst pointer rfl)), fun _ _ _ _ _ => trivial⟩
    exact hdelete.bind fun _ _ _ => keeps_pure trivial

theorem within_of_isPosting {tablePrefix : String} {c : CloudCall} (h : c.IsPosting tablePrefix) :
    c.Within (Own tablePrefix) := by
  cases c with
  | put => exact .inl h.1
  | delete => exact .inl h
  | _ => trivial

/-- **A subscriber keeps to its own table**, after it has claimed the backfill marker. -/
def outline (ctx : Context) (tablePrefix : String) (start : Site)
    (hmarker : ∀ created, Claim.key (BackfillMarker.keyOf tablePrefix) created = Claim.key marker created) :
    Outline (env (Own tablePrefix) marker start) ctx tablePrefix where
  toTurnOutline := .loose (.any fun hc => Or.inl hc.within) tablePrefix (.inl (.inr (.inl rfl)))
  First _ _ _ _ := True
  Open _ _ := True
  Start s := s = start
  posts hx := hx.keeps_all fun hc => .inl (within_of_isPosting hc)
  starts hx hs := keeps_passive hx hs
  trigger hs := (keeps_head _ hs).mono fun found s h object e =>
    keeps_takeObject (fun created => by rw [h.2 object e, hmarker]) h.1
  readLock := Leased.keeps_readLock (.inl trivial) (fun _ _ => trivial) (fun _ _ _ => .inl trivial)
    (fun _ _ _ _ _ _ => trivial) fun _ _ _ _ _ _ _ => trivial
  looks _ := (Backlog.reads_next _).passive.keeps_all fun hc => .inl hc.within
  vacant _ := trivial
  empty _ := trivial
  other _ _ := trivial
  resumes _ _ _ _ := trivial
  pops _ _ _ := keeps_pop fun _ hkey => .inr (.inr hkey)
  counts _ := (passive_count _).keeps_all fun hc => .inl hc.within
  times _ := passive_now.keeps_all fun hc => .inl hc.within
  next _ := (Backlog.reads_next _).passive.keeps_all fun hc => .inl hc.within
  releases _ := Leased.keeps_releaseLock (fun _ => trivial) (fun _ _ => .inl (.inr (.inl rfl)))
    fun _ _ _ _ _ _ => trivial

/-- **Every notification keeps to its table**, after it has made its claim. -/
def handling {tablePrefix : String} (htable : ctx.layout.tablePrefix n.key = .ok tablePrefix) (start : Site) :
    Dispatch.Handling (env (Own tablePrefix) n.key start) ctx n where
  Before s := s = start
  passive hc := .inl hc.within
  looks hc hs hr := (Site.Answers.eq_of_isPassive hr hc).trans hs
  takes _ hs := keeps_take hs
  loads _ := .any fun hc => .inl hc.within
  pushes hfound hkey := .inl (.inr (.inr (Dispatch.eq_of_table? htable hfound ▸ hkey)))
  clears hfound := .inl (.inl (by rw [Dispatch.eq_of_table? htable hfound]))
  posts hfound := by
    rw [Dispatch.eq_of_table? htable hfound]
    exact (BackfillMarker.posting_post _).keeps_all fun hc => .inl (within_of_isPosting hc)
  runs {other _} htrigger hfound hs := by
    obtain rfl := Dispatch.eq_of_table? htable hfound
    have hdirectory : Key.directory n.key = other := by
      simp only [Dispatch.table?, htrigger] at hfound
      exact Dispatch.directory_of_atTablePrefix? hfound
    refine (outline _ other start fun created => Claim.key_congr ?_ ?_ created).keeps_run hs
    · rw [BackfillMarker.directory_keyOf, hdirectory]
    · rw [BackfillMarker.name_keyOf, Dispatch.name_of_backfill htrigger, Key.backfillName]

/-- The notification is of a success marker that is applied at once. -/
structure AtOnce (ctx : Context) (n : Notification) (site : Site) : Prop where
  trigger : Dispatch.triggerOf ctx.layout n = .successMarker
  notAlways : ctx.settings.alwaysOrdered = false
  notOrdered : site.store.gives (ConfigFiles.isOrdered n.key) = some false

/-- **What is applied at once writes its claim only.** -/
theorem keeps_atOnce (h : AtOnce ctx n start) :
    (Dispatch.handle ctx n).Keeps (env (fun _ => False) n.key start) (fun _ _ => True) start := by
  refine Dispatch.keeps_handle_of_act (fun hc => .inl hc.within)
    (fun hc hs hr => (Site.Answers.eq_of_isPassive hr hc).trans hs) (fun {s} hs => ?_) rfl
  rw [h.trigger]
  show (Dispatch.successMarker _ n.key).Keeps _ _ s
  unfold Dispatch.successMarker
  rw [if_neg (by rw [h.notAlways]; nofun)]
  refine (keeps_reads (ConfigFiles.reads_orderedIn _)).bind fun ordered s' hordered => ?_
  obtain ⟨rfl, hgives⟩ := hordered
  obtain rfl : s' = start := hs
  obtain rfl : ordered = false := Option.some.inj (hgives.symm.trans h.notOrdered)
  exact (Dispatch.keeps_applyNow (keeps_take rfl) (.any fun hc => .inl hc.within)).bind fun _ _ _ => keeps_pure trivial

/-- **A notification leaves everything alone but what belongs to its table.**  At whatever point the handling of a
notification is, and however it goes on, every object is as it was when it began, but for a claim beside the object that
the notification is about, which is empty and was not there before, and for the backfill marker, the lock and the
backlog of the table that the key belongs to; and where the marker is applied at once these are as they were, too. -/
theorem framed_of_handled {tablePrefix : String} {site site' : Site}
    {rest : CloudProgram (Except Failure Outcome)} (htable : ctx.layout.tablePrefix n.key = .ok tablePrefix)
    (h : Site.Reaches (Dispatch.handle ctx n).run site rest site') :
    ∃ created, Key.directory (Claim.key n.key created) = Key.directory n.key ∧ ∀ key,
      site'.store.get? key = site.store.get? key ∨
      (key = Claim.key n.key created ∧ site.store.get? key = none ∧
        ∃ object, site'.store.get? key = some object ∧ object.body = []) ∨
      ¬ AtOnce ctx n site ∧ (key = BackfillMarker.keyOf tablePrefix ∨ key = TableLock.keyOf tablePrefix ∨
        startsWith (Backlog.folder tablePrefix) key = true) := by
  by_cases hatOnce : AtOnce ctx n site
  · obtain ⟨created, hframed⟩ := h.keeps Framed.call (keeps_atOnce hatOnce) (.refl _ _ _)
    exact ⟨created, Claim.directory_key _ _, fun key => (hframed key id).imp_right .inl⟩
  · obtain ⟨created, hframed⟩ := h.keeps Framed.call ((handling htable site).keeps_handle rfl) (.refl _ _ _)
    refine ⟨created, Claim.directory_key _ _, fun key => ?_⟩
    by_cases hown : Own tablePrefix key
    · exact .inr (.inr ⟨hatOnce, hown⟩)
    · exact (hframed key hown).imp_right .inl

end Keeps

def woken : Notification := ⟨"lake", "d/t/_BACKFILL", none⟩

/-- The subscriber has worked for a while. -/
def worked : CloudProgram (Except Failure Outcome) × World :=
  (Trial.table Trial.pointers).runFor 54 (Dispatch.handle Trial.context woken).run

/-- A subscriber of the trial table takes a pointer away, and leaves the files that it has loaded. -/
theorem framed_of_handled_trial : ∃ (site site' : Site) (rest : CloudProgram (Except Failure Outcome)),
    Trial.context.layout.tablePrefix woken.key = .ok "d/t" ∧
    Site.Reaches (Dispatch.handle Trial.context woken).run site rest site' ∧
    site.store.pointers "d/t" = Trial.pointers ∧ site'.store.pointers "d/t" = ["d/t/_backlog/b/_SUCCESS"] ∧
    site'.store.get? "d/t/a/x.csv" = site.store.get? "d/t/a/x.csv" := by
  have hsteady : (Trial.table Trial.pointers).Steady (fun _ => True) 54 := Trial.steady_table _ trivial (by decide)
  have hreaches : Site.Reaches (Dispatch.handle Trial.context woken).run (Trial.table Trial.pointers).site worked.1
      worked.2.site := World.reaches_runFor (World.abides_lenient "" "") hsteady (Nat.le_refl 54) _
  have htable : Trial.context.layout.tablePrefix woken.key = .ok "d/t" := by decide +kernel
  obtain ⟨created, -, hframed⟩ := framed_of_handled htable hreaches
  refine ⟨_, _, _, htable, hreaches, by decide +kernel, by decide +kernel, ?_⟩
  rcases hframed "d/t/a/x.csv" with hsame | ⟨-, hnone, -⟩ | ⟨-, hown⟩
  · exact hsame
  · exact absurd hnone (by decide +kernel)
  · exact absurd hown (by decide +kernel)

end Frame
end Intake
