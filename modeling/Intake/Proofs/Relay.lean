import Intake.Proofs.Conduct
import Intake.Proofs.Move
import Intake.Proofs.Trial
import Mathlib.Logic.Relation
/-!
# Relay — subscribers one after the other

A subscriber works on a table; when it has ended, or was stopped after some call, another one may start.  Others write
and delete objects when no subscriber is at work or when it sleeps, but never the lock.  What every move keeps true, and
what others keep true, is true at every point of such a chain (`Relay.induct`).
-/
namespace Intake

open Scene

/-- A scene, and the subscriber that is at work there. -/
structure Relay where
  scene : Scene
  running : Option (CloudProgram Unit)

namespace Relay

/-- Others write or delete an object. -/
inductive Outside (key : String) (s : Scene) : Scene → Prop where
  | write (body : Octets) (now : Timestamp) :
    Outside key s ⟨{ s.site with store := s.site.store.write key body now }, s.log ++ [.wrote key]⟩
  | remove : Outside key s ⟨{ s.site with store := s.site.store.remove key }, s.log ++ [.removed key]⟩

/-- No subscriber is at work, or it sleeps. -/
def Resting (relay : Relay) : Prop :=
  ∀ program, relay.running = some program → ∃ span next, program = Program.ask (I := Cloud) (.sleep span) next

/-- **What happens next**: a subscriber starts, makes a call, or is gone; or others act on an object that is not the lock,
as they may. -/
inductive Step (ctx : Context) (tablePrefix : String) (others : String → Scene → Scene → Prop) :
    Relay → Relay → Prop where
  | start {s : Scene} : Step ctx tablePrefix others ⟨s, none⟩ ⟨s, some (Subscriber.run ctx tablePrefix).errand⟩
  | call {s s' : Scene} {c : CloudCall} {next : c.Reply → CloudProgram Unit} {reply : c.Reply}
      (h : Replies c s reply s') : Step ctx tablePrefix others ⟨s, some (Program.ask c next)⟩ ⟨s', some (next reply)⟩
  | leave {s : Scene} {program : CloudProgram Unit} : Step ctx tablePrefix others ⟨s, some program⟩ ⟨s, none⟩
  | others {relay : Relay} {key : String} {s' : Scene} (hrest : relay.Resting) (hkey : key ≠ TableLock.keyOf tablePrefix)
      (houtside : Outside key relay.scene s') (h : others key relay.scene s') :
    Step ctx tablePrefix others relay ⟨s', relay.running⟩

variable {ctx : Context} {tablePrefix : String} {others : String → Scene → Scene → Prop}
  {roster : Roster ctx.settings.jobPrefix} {s s' : Scene}

section Outside

variable {key : String} (h : Outside key s s')

include h

theorem Outside.accepted_eq : s'.site.accepted = s.site.accepted := by cases h <;> rfl

theorem Outside.drawn_eq : s'.site.drawn = s.site.drawn := by cases h <;> rfl

theorem Outside.lockKept (hkey : key ≠ TableLock.keyOf tablePrefix) : LockKept tablePrefix s s' := by
  cases h with
  | write body now => exact ⟨Store.get?_write_of_ne _ _ _ hkey.symm, List.prefix_append _ _⟩
  | remove => exact ⟨Store.get?_remove_of_ne _ hkey.symm, List.prefix_append _ _⟩

/-- What others do is no call. -/
theorem Outside.log_eq : ∃ e : Event, s'.log = s.log ++ [e] ∧ ¬ e.IsCall := by
  cases h with
  | write => exact ⟨_, rfl, id⟩
  | remove => exact ⟨_, rfl, id⟩

end Outside

variable (tablePrefix roster) in
/-- The subscriber at work makes its moves and no others. -/
structure Orderly (relay : Relay) : Prop where
  basic : Basic tablePrefix roster relay.scene
  keeps : ∀ program, relay.running = some program →
    program.Keeps (alone ctx tablePrefix roster) (fun _ _ => True) relay.scene

/-- A subscriber that sleeps goes on as it would have, whatever others do meanwhile. -/
theorem keeps_of_resting {span : Duration} {next : Unit → CloudProgram Unit} (hkept : LockKept tablePrefix s s')
    (h : Program.Keeps (alone ctx tablePrefix roster) (fun _ _ => True) (Program.ask (.sleep span) next) s) :
    Program.Keeps (alone ctx tablePrefix roster) (fun _ _ => True) (Program.ask (.sleep span) next) s' := by
  refine ⟨trivial, fun reply u hr => h.2 reply u ?_⟩
  obtain ⟨t, ht, hbasic, hreplies⟩ := hr
  refine ⟨t, .inr ⟨⟨span, rfl⟩, ?_⟩, hbasic, hreplies⟩
  rcases ht with rfl | ⟨-, ht⟩
  · exact hkept
  · exact hkept.trans ht

theorem Basic.of_outside {key : String} (hbasic : Basic tablePrefix roster s) (h : Outside key s s')
    (hlisted : ∀ q ∈ s'.site.store.pointers tablePrefix, roster.has q) : Basic tablePrefix roster s' where
  drawn := by rw [h.accepted_eq, h.drawn_eq]; exact hbasic.drawn
  seen id status hmem := by
    obtain ⟨e, hlog, he⟩ := h.log_eq
    rw [hlog, List.mem_append, List.mem_singleton] at hmem
    rw [Site.ids, h.accepted_eq]
    rcases hmem with hmem | rfl
    · exact hbasic.seen id status hmem
    · exact absurd trivial he
  listed := hlisted

/-- **What moves and others keep true is true at every point of a chain of subscribers.** -/
theorem induct (inv : Scene → Prop) (hlead : JobId.IsLead ctx.settings.jobPrefix)
    (hlisted : ∀ {key s s'}, Basic tablePrefix roster s → inv s → key ≠ TableLock.keyOf tablePrefix →
      Outside key s s' → others key s s' → ∀ q ∈ s'.site.store.pointers tablePrefix, roster.has q)
    (hothers : ∀ {key s s'}, Basic tablePrefix roster s → inv s → key ≠ TableLock.keyOf tablePrefix →
      Outside key s s' → others key s s' → inv s')
    (hmove : ∀ {c s s'} {reply : CloudCall.Reply c}, Basic tablePrefix roster s → inv s → Guard ctx tablePrefix c s →
      Replies c s reply s' → inv s') {start relay : Relay} (hstart : Orderly tablePrefix roster start)
    (hinv : inv start.scene) (hsteps : Relation.ReflTransGen (Step ctx tablePrefix others) start relay) :
    Orderly tablePrefix roster relay ∧ inv relay.scene := by
  induction hsteps with
  | refl => exact ⟨hstart, hinv⟩
  | tail _ hstep ih =>
    obtain ⟨⟨hbasic, hkeeps⟩, hinv⟩ := ih
    cases hstep with
    | start =>
      refine ⟨⟨hbasic, fun program he => ?_⟩, hinv⟩
      cases he
      exact ((Conduct.outline ctx tablePrefix roster hlead).keeps_run trivial).errand
    | call hreplies =>
      obtain ⟨hguard, hnext⟩ := hkeeps _ rfl
      refine ⟨⟨hbasic.of_guard hlead hguard hreplies, fun program he => ?_⟩, hmove hbasic hinv hguard hreplies⟩
      cases he
      exact hnext _ _ ⟨_, .inl rfl, hbasic, hreplies⟩
    | leave => exact ⟨⟨hbasic, nofun⟩, hinv⟩
    | others hrest hkey houtside h =>
      refine ⟨⟨Basic.of_outside hbasic houtside (hlisted hbasic hinv hkey houtside h), fun program he => ?_⟩,
        hothers hbasic hinv hkey houtside h⟩
      obtain ⟨span, next, rfl⟩ := hrest program he
      exact keeps_of_resting (houtside.lockKept hkey) (hkeeps _ he)

/-- **Nothing has begun**: there is no lock, no job was accepted, and nobody is at work. -/
structure Unbegun (tablePrefix : String) (relay : Relay) : Prop where
  lock : relay.scene.site.store.get? (TableLock.keyOf tablePrefix) = none
  accepted : relay.scene.site.accepted = []
  log : relay.scene.log = []
  running : relay.running = none

theorem Unbegun.orderly {start : Relay} (h : start.Unbegun tablePrefix)
    (hlisted : ∀ q ∈ start.scene.site.store.pointers tablePrefix, roster.has q) : Orderly tablePrefix roster start where
  basic := by
    refine ⟨?_, ?_, hlisted⟩
    · rw [h.accepted]
      nofun
    · rw [h.log]
      nofun
  keeps program hprogram := by
    rw [h.running] at hprogram
    cases hprogram

/-- What was written from outside was written at the start, or by a step of others. -/
theorem others_of_wrote {start relay : Relay} {key : String}
    (hsteps : Relation.ReflTransGen (Step ctx tablePrefix others) start relay) (h : Event.wrote key ∈ relay.scene.log) :
    Event.wrote key ∈ start.scene.log ∨ ∃ s s', others key s s' := by
  induction hsteps with
  | refl => exact .inl h
  | tail _ hstep ih =>
    cases hstep with
    | start => exact ih h
    | leave => exact ih h
    | call hreplies =>
      rw [hreplies.log, List.mem_append, List.mem_singleton] at h
      exact ih (h.resolve_right nofun)
    | others _ _ houtside ho =>
      cases houtside with
      | write =>
        rcases List.mem_append.1 h with h | h
        · exact ih h
        · cases List.mem_singleton.1 h
          exact .inr ⟨_, _, ho⟩
      | remove => exact ih ((List.mem_append.1 h).resolve_right (by simp))

/-! ## Trials -/

/-- What the sandbox replies may come of the call. -/
theorem replies_answer {w : World} (hcalm : w.Calm) (hroom : w.idsDrawn + 1 < 16 ^ 12) (c : CloudCall) (log : List Event) :
    Replies c ⟨w.site, log⟩ (World.answer c w).1 ⟨(World.answer c w).2.site, log ++ [.call c (World.answer c w).1]⟩ where
  site := World.answers hcalm hroom c
  honest := by
    cases c with
    | job id =>
      cases hreply : (World.answer (.job id) w).1 with
      | error => trivial
      | ok found =>
        cases found with
        | none => trivial
        | some status => exact World.mem_ids_of_job hcalm hreply
    | _ => trivial
  log := rfl

/-- A trial of a program in the sandbox is a chain of steps. -/
theorem exists_steps_runFor {w : World} (hcalm : w.Calm) {n : Nat} (hroom : w.idsDrawn + n < 16 ^ 12)
    (program : CloudProgram Unit) (log : List Event) :
    ∃ log', Relation.ReflTransGen (Step ctx tablePrefix others) ⟨⟨w.site, log⟩, some program⟩
        ⟨⟨(w.runFor n program).2.site, log'⟩, some (w.runFor n program).1⟩ ∧
      (∀ key, Event.wrote key ∈ log' → Event.wrote key ∈ log) ∧ (w.runFor n program).2.Calm ∧
      (w.runFor n program).2.idsDrawn ≤ w.idsDrawn + n := by
  have hsteady : w.Steady (fun _ => True) n := ⟨hcalm, trivial, hroom⟩
  refine ⟨_, hsteady.trial (motive := fun w' p deeds => Relation.ReflTransGen (Step ctx tablePrefix others)
      ⟨⟨w.site, log⟩, some program⟩ ⟨⟨w'.site, log ++ deeds.map fun deed => .call deed.call deed.reply⟩, some p⟩)
    (fun _ _ _ => trivial) (fun hsteady hsteps => ?_) [] ?_, ?_, hcalm.runFor hroom program⟩
  · rw [List.map_append, ← List.append_assoc]
    exact hsteps.tail (.call (replies_answer hsteady.calm hsteady.room _ _))
  · rw [List.map_nil, List.append_nil]
  · intro key hkey
    exact (List.mem_append.1 hkey).resolve_right (by simp)

/-- A subscriber that starts, makes some calls and is gone. -/
theorem exists_steps_shift (ctx : Context) (tablePrefix : String) (others : String → Scene → Scene → Prop) {w : World}
    (hcalm : w.Calm) (n : Nat) (hroom : w.idsDrawn + n < 16 ^ 12) (log : List Event) :
    ∃ log', Relation.ReflTransGen (Step ctx tablePrefix others) ⟨⟨w.site, log⟩, none⟩
        ⟨⟨(w.shift ctx tablePrefix n).site, log'⟩, none⟩ ∧
      (∀ key, Event.wrote key ∈ log' → Event.wrote key ∈ log) ∧ (w.shift ctx tablePrefix n).Calm ∧
      (w.shift ctx tablePrefix n).idsDrawn ≤ w.idsDrawn + n := by
  obtain ⟨log', hsteps, hrest⟩ := exists_steps_runFor hcalm hroom (Subscriber.run ctx tablePrefix).errand log
  exact ⟨log', (Relation.ReflTransGen.head .start hsteps).tail .leave, hrest⟩

theorem outside_given (w : World) (key : String) (body : Octets) (log : List Event) :
    Outside key ⟨w.site, log⟩ ⟨(w.given key body).site, log ++ [.wrote key]⟩ :=
  .write body w.instant

/-- Others write an object between two subscribers. -/
theorem step_given {w : World} {key : String} (body : Octets) (log : List Event) (hkey : key ≠ TableLock.keyOf tablePrefix)
    (h : others key ⟨w.site, log⟩ ⟨(w.given key body).site, log ++ [.wrote key]⟩) :
    Step ctx tablePrefix others ⟨⟨w.site, log⟩, none⟩ ⟨⟨(w.given key body).site, log ++ [.wrote key]⟩, none⟩ :=
  .others nofun hkey (outside_given w key body log) h

end Relay
end Intake
