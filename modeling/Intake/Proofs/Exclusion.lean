import Intake.Proofs.Crew
import Intake.Proofs.Trial
import Mathlib.Logic.Relation
/-!
# Exclusion — at most one job of a table is under way

A crew is any number of invocations for one table, subscribers, enqueuings and monitors, that share a site.  They take
their calls in any order; one that is never chosen again has stopped for ever.  Meanwhile jobs finish, and others write
and delete what they like but the lock.
-/
namespace Intake

open Account

/-- Invocations that share a site. -/
structure Crew where
  site : Site
  finished : List String
  threads : List (CloudProgram Unit)

namespace Crew

/-- What a member of the crew does. -/
inductive Errand (jobPrefix tablePrefix : String) : CloudProgram Unit → Prop where
  | subscriber (ctx : Context) (h : ctx.settings.jobPrefix = jobPrefix) :
    Errand jobPrefix tablePrefix (Subscriber.run ctx tablePrefix).errand
  | enqueue (ctx : Context) (marker : String) (h : ctx.layout.tablePrefix marker = .ok tablePrefix) :
    Errand jobPrefix tablePrefix (Intake.enqueue ctx marker).errand
  | monitor (ctx : Context) : Errand jobPrefix tablePrefix (Monitor.ensureSubscriber ctx tablePrefix).errand

/-- **What happens next**: somebody joins, a member makes its next call, a job finishes, or others write or delete
something. -/
inductive Step (jobPrefix tablePrefix : String) : Crew → Crew → Prop where
  | join {crew : Crew} {thread : CloudProgram Unit} (h : Errand jobPrefix tablePrefix thread) :
    Step jobPrefix tablePrefix crew { crew with threads := thread :: crew.threads }
  | call {site site' : Site} {finished : List String} {before after : List (CloudProgram Unit)} {c : CloudCall}
      {next : c.Reply → CloudProgram Unit} {reply : c.Reply} (h : Site.Answers c site reply site')
      (htrue : Truthful c reply finished) :
    Step jobPrefix tablePrefix ⟨site, finished, before ++ Program.ask c next :: after⟩
      ⟨site', finished, before ++ next reply :: after⟩
  | finish {crew : Crew} (id : String) :
    Step jobPrefix tablePrefix crew { crew with finished := id :: crew.finished }
  | write {crew : Crew} {key : String} (body : Octets) (now : Timestamp) (h : key ≠ TableLock.keyOf tablePrefix) :
    Step jobPrefix tablePrefix crew { crew with site.store := crew.site.store.write key body now }
  | remove {crew : Crew} {key : String} (h : key ≠ TableLock.keyOf tablePrefix) :
    Step jobPrefix tablePrefix crew { crew with site.store := crew.site.store.remove key }

def inFlight (crew : Crew) : List Job := crew.site.accepted.filter fun job => job.id ∉ crew.finished

variable {jobPrefix tablePrefix : String} {a b : Account}

/-! ## What each member does -/

/-- **Every member of the crew makes permitted calls only.** -/
theorem Errand.keeps (hlead : JobId.IsLead jobPrefix) {thread : CloudProgram Unit}
    (h : Errand jobPrefix tablePrefix thread) : thread.Keeps (among jobPrefix tablePrefix) (fun _ _ => True) a := by
  cases h with
  | subscriber ctx hctx =>
    subst hctx
    exact ((outline ctx tablePrefix hlead).keeps_run trivial).errand
  | enqueue ctx marker hmarker => exact (keeps_modest (modest_enqueue hmarker) lasting_true trivial).errand
  | monitor ctx => exact (keeps_modest (Monitor.modest_ensureSubscriber ctx) lasting_true trivial).errand

/-! ## What they do together -/

/-- A member that waits for its turn loses nothing. -/
theorem keeps_later {thread : CloudProgram Unit} (hlater : Later tablePrefix a b) :
    thread.Keeps (among jobPrefix tablePrefix) (fun _ _ => True) a →
      thread.Keeps (among jobPrefix tablePrefix) (fun _ _ => True) b := by
  intro h
  match thread, h with
  | .done _, _ => trivial
  | .halt _, _ => trivial
  | Program.ask c next, h =>
    refine ⟨fun d hd => h.1 d (hlater.trans hd), fun reply d hd => ?_⟩
    obtain ⟨b', hb', hsound, hanswers⟩ := hd
    exact h.2 reply d ⟨b', hlater.trans hb', hsound, hanswers⟩

/-- The crew keeps the lock's promise, and each of its members goes on to. -/
def Orderly (jobPrefix tablePrefix : String) (crew : Crew) : Prop :=
  ∃ claimed, (Account.mk crew.site crew.finished claimed).Sound jobPrefix tablePrefix ∧
    ∀ thread ∈ crew.threads, thread.Keeps (among jobPrefix tablePrefix) (fun _ _ => True)
      ⟨crew.site, crew.finished, claimed⟩

theorem Orderly.move {crew : Crew} {site : Site} {finished : List String} (h : crew.Orderly jobPrefix tablePrefix)
    (hmove : ∀ claimed, (Account.mk crew.site crew.finished claimed).Sound jobPrefix tablePrefix →
      (Account.mk site finished claimed).Sound jobPrefix tablePrefix ∧
        Later tablePrefix ⟨crew.site, crew.finished, claimed⟩ ⟨site, finished, claimed⟩) :
    Orderly jobPrefix tablePrefix ⟨site, finished, crew.threads⟩ := by
  obtain ⟨claimed, hsound, hthreads⟩ := h
  obtain ⟨hsound', hlater⟩ := hmove claimed hsound
  exact ⟨claimed, hsound', fun thread ht => keeps_later hlater (hthreads thread ht)⟩

theorem sound_of_finish {site : Site} {finished claimed : List String} (id : String)
    (h : (Account.mk site finished claimed).Sound jobPrefix tablePrefix) :
    (Account.mk site (id :: finished) claimed).Sound jobPrefix tablePrefix := by
  have hmore : ∀ id' ∈ finished, id' ∈ id :: finished := fun _ => List.mem_cons_of_mem _
  refine ⟨fun id' hid' => (h.claimed id' hid').imp_right (hmore id'), ?_, ?_⟩
  · refine h.distinct.sublist (List.Sublist.map _ ?_)
    refine List.monotone_filter_right _ fun job hjob => ?_
    simp only [decide_eq_true_eq] at hjob ⊢
    exact fun hmem => hjob (hmore _ hmem)
  · have hb := h.bounded
    simp only at hb ⊢
    match site.store.lockBody jobPrefix tablePrefix, hb with
    | none, hb => exact fun id' hid' => hmore id' (hb id' hid')
    | some (.job j), hb => exact fun id' hid' hne => hmore id' (hb id' hid' hne)
    | some (.manual _), ⟨j, hb⟩ => exact ⟨j, fun id' hid' hne => hmore id' (hb id' hid' hne)⟩

/-- **Nothing that happens breaks the lock's promise.** -/
theorem Orderly.step (hlead : JobId.IsLead jobPrefix) {crew crew' : Crew} (h : crew.Orderly jobPrefix tablePrefix)
    (hstep : Step jobPrefix tablePrefix crew crew') : crew'.Orderly jobPrefix tablePrefix := by
  cases hstep with
  | join herrand =>
    obtain ⟨claimed, hsound, hthreads⟩ := h
    refine ⟨claimed, hsound, fun thread ht => ?_⟩
    rcases List.mem_cons.1 ht with rfl | ht
    · exact herrand.keeps hlead
    · exact hthreads thread ht
  | finish id =>
    refine h.move fun claimed hsound => ⟨sound_of_finish id hsound, ?_⟩
    exact ⟨.refl _ _, fun _ => List.mem_cons_of_mem _, fun _ hid => hid⟩
  | write body now hkey =>
    refine h.move fun claimed hsound => ⟨hsound.congr ?_ rfl rfl rfl, .write .., fun _ hid => hid, fun _ hid => hid⟩
    exact Store.lockBody_write_of_ne _ _ _ _ hkey
  | remove hkey =>
    refine h.move fun claimed hsound => ⟨hsound.congr ?_ rfl rfl rfl, .remove .., fun _ hid => hid, fun _ hid => hid⟩
    exact Store.lockBody_remove_of_ne _ _ hkey
  | @call site site' finished before after c next reply hanswers htrue =>
    obtain ⟨claimed, hsound, hthreads⟩ := h
    let a : Account := ⟨site, finished, claimed⟩
    let b : Account := ⟨site', finished,
      if a.AllFinished then (written? tablePrefix c reply).toList ++ claimed else claimed⟩
    have hab : Answers tablePrefix c a reply b := ⟨hanswers, htrue, rfl, rfl⟩
    have hthread := hthreads (Program.ask c next) (by simp)
    obtain ⟨hsound', hlater⟩ := sound_of_permitted hsound (hthread.1 a (.refl a)) hab
    refine ⟨b.claimed, hsound', fun thread ht => ?_⟩
    rw [List.mem_append, List.mem_cons] at ht
    rcases ht with ht | rfl | ht
    · exact keeps_later hlater (hthreads thread (by simp [ht]))
    · exact hthread.2 reply b ⟨a, .refl a, hsound, hab⟩
    · exact keeps_later hlater (hthreads thread (by simp [ht]))

/-- **At most one job of a table is under way.**  Any number of subscribers, enqueuings and monitors of the table run
side by side, each of which may stop for ever after any call, while jobs finish and others write and delete whatever
they like but the lock.  The prefix of job names is not empty and not led by a blank, and the warehouse says of no job
that it has ended before it has; there was no lock, and no job under way, in the beginning. -/
theorem inFlight_length_le_one (hlead : JobId.IsLead jobPrefix) {start crew : Crew}
    (hlock : start.site.store.get? (TableLock.keyOf tablePrefix) = none)
    (hfinished : ∀ id ∈ start.site.ids, id ∈ start.finished) (hthreads : start.threads = [])
    (hsteps : Relation.ReflTransGen (Step jobPrefix tablePrefix) start crew) : crew.inFlight.length ≤ 1 := by
  have hstart : start.Orderly jobPrefix tablePrefix := by
    refine ⟨[], ⟨fun id hid => .inr (hfinished id hid), ?_, ?_⟩, by simp [hthreads]⟩
    · have hnone : start.site.accepted.filter (fun job => job.id ∉ start.finished) = [] := by
        rw [List.filter_eq_nil_iff]
        intro job hjob
        simpa using hfinished job.id (List.mem_map_of_mem hjob)
      rw [Account.inFlight, hnone]
      exact List.Pairwise.nil
    · rw [Store.lockBody, hlock]
      exact fun _ hid => absurd hid List.not_mem_nil
  have hcrew : crew.Orderly jobPrefix tablePrefix := by
    induction hsteps with
    | refl => exact hstart
    | tail _ hstep ih => exact ih.step hlead hstep
  obtain ⟨claimed, hsound, -⟩ := hcrew
  exact hsound.inFlight_length

/-! ## A trial of two subscribers -/

/-- Nobody is told that a job has ended. -/
def isQuiet : (c : CloudCall) → c.Reply → Bool
  | .job _, .ok (some status) => !status.isDone
  | _, _ => true

/-- Nobody is told so while a program makes some calls in the sandbox. -/
def isQuietFor (w : World) (n : Nat) (program : CloudProgram Unit) : Bool :=
  (w.deedsFor n program).all fun deed => isQuiet deed.call deed.reply

theorem truthful_of_isQuiet {c : CloudCall} {reply : c.Reply} (h : isQuiet c reply = true) (finished : List String) :
    Truthful c reply finished := by
  cases c with
  | job id =>
    cases reply with
    | error => trivial
    | ok found =>
      cases found with
      | none => trivial
      | some status =>
        intro hdone
        simp only [isQuiet, hdone] at h
        cases h
  | _ => trivial

theorem steps_runFor (jobPrefix tablePrefix : String) {w : World} (hcalm : w.Calm) {n : Nat} (hroom : w.idsDrawn + n < 16 ^ 12)
    {program : CloudProgram Unit} (hquiet : isQuietFor w n program = true) (finished : List String)
    (before after : List (CloudProgram Unit)) :
    Relation.ReflTransGen (Step jobPrefix tablePrefix) ⟨w.site, finished, before ++ program :: after⟩
        ⟨(w.runFor n program).2.site, finished, before ++ (w.runFor n program).1 :: after⟩ ∧
      (w.runFor n program).2.Calm ∧ (w.runFor n program).2.idsDrawn ≤ w.idsDrawn + n := by
  have hsteady : w.Steady (fun _ => True) n := ⟨hcalm, trivial, hroom⟩
  have hsteps : (∀ deed ∈ w.deedsFor n program, isQuiet deed.call deed.reply = true) →
      Relation.ReflTransGen (Step jobPrefix tablePrefix) ⟨w.site, finished, before ++ program :: after⟩
        ⟨(w.runFor n program).2.site, finished, before ++ (w.runFor n program).1 :: after⟩ := by
    refine hsteady.trial (motive := fun w' p deeds => (∀ deed ∈ deeds, isQuiet deed.call deed.reply = true) →
      Relation.ReflTransGen (Step jobPrefix tablePrefix) ⟨w.site, finished, before ++ program :: after⟩
        ⟨w'.site, finished, before ++ p :: after⟩) (fun _ _ _ => trivial) (fun hsteady hsteps hquiet => ?_) [] fun _ => .refl
    obtain ⟨hquiet, hlast⟩ := List.forall_mem_append.1 hquiet
    exact (hsteps hquiet).tail (.call (World.answers hsteady.calm hsteady.room _)
      (truthful_of_isQuiet (hlast _ (List.mem_singleton_self _)) _))
  exact ⟨hsteps (List.all_eq_true.1 hquiet), hcalm.runFor hroom program⟩

/-- A subscriber makes some calls, another one is called for, and it makes some calls too. -/
theorem exists_steps_two (ctx : Context) (tablePrefix : String) {w : World} (hcalm : w.Calm) {n m : Nat}
    (hroom : w.idsDrawn + n + m < 16 ^ 12)
    (hfirst : isQuietFor w n (Subscriber.run ctx tablePrefix).errand = true)
    (hsecond : isQuietFor ((w.shift ctx tablePrefix n).given (BackfillMarker.keyOf tablePrefix) []) m
      (Subscriber.run ctx tablePrefix).errand = true) :
    ∃ one two, Relation.ReflTransGen (Step ctx.settings.jobPrefix tablePrefix) ⟨w.site, [], []⟩
      ⟨(((w.shift ctx tablePrefix n).given (BackfillMarker.keyOf tablePrefix) []).shift ctx tablePrefix m).site, [],
        [two, one]⟩ := by
  obtain ⟨hone, hcalm', hdrawn⟩ :=
    steps_runFor ctx.settings.jobPrefix tablePrefix hcalm (by omega) hfirst [] [] []
  have hwrite := hone.tail
    (.write [] (w.shift ctx tablePrefix n).instant (BackfillMarker.keyOf_ne_lock tablePrefix tablePrefix))
  obtain ⟨htwo, -⟩ := steps_runFor ctx.settings.jobPrefix tablePrefix
    (hcalm'.given (BackfillMarker.keyOf tablePrefix) []) (by rw [World.idsDrawn_given]; omega) hsecond [] []
    [(w.runFor n (Subscriber.run ctx tablePrefix).errand).1]
  exact ⟨_, _, .head (.join (.subscriber ctx rfl)) (hwrite.trans (.head (.join (.subscriber ctx rfl)) htwo))⟩

theorem inFlight_of_unfinished (site : Site) (threads : List (CloudProgram Unit)) :
    (⟨site, [], threads⟩ : Crew).inFlight = site.accepted :=
  List.filter_eq_self.2 (by simp)

/-- A table whose jobs take long. -/
def slowTrial : World :=
  { Trial.table Trial.pointers with warehouse := { scriptOf := fun _ => { runningPolls := 100 } } }

/-- A second subscriber joins after the first one has submitted a job; it waits for that job and submits none. -/
theorem inFlight_length_le_one_trial : ∃ crew : Crew, crew.threads.length = 2 ∧ crew.inFlight ≠ [] ∧
    crew.inFlight.length ≤ 1 := by
  have hcalm : slowTrial.Calm := ⟨(Trial.calm_table Trial.pointers).planned, fun _ => ⟨nofun, nofun⟩⟩
  have hnone : slowTrial.idsDrawn = 0 := by decide +kernel
  have hlock : slowTrial.site.store.get? (TableLock.keyOf "d/t") = none := by decide +kernel
  have hfirst : isQuietFor slowTrial 20 (Subscriber.run Trial.context "d/t").errand = true := by decide +kernel
  have hsecond : isQuietFor ((slowTrial.shift Trial.context "d/t" 20).given (BackfillMarker.keyOf "d/t") []) 30
    (Subscriber.run Trial.context "d/t").errand = true := by decide +kernel
  have hone : (((slowTrial.shift Trial.context "d/t" 20).given (BackfillMarker.keyOf "d/t") []).shift Trial.context "d/t"
      30).site.accepted.length = 1 := by decide +kernel
  obtain ⟨one, two, hsteps⟩ := exists_steps_two Trial.context "d/t" hcalm (by omega) hfirst hsecond
  refine ⟨_, rfl, ?_, inFlight_length_le_one ⟨_, _, rfl, by decide⟩ hlock (fun _ h => h) rfl hsteps⟩
  rw [inFlight_of_unfinished]
  intro hempty
  rw [hempty] at hone
  cases hone

end Crew
end Intake
