import Intake.Proofs.Store
/-!
# Generations — what a version is worth over a whole history

A store is called in any order: objects are written and deleted under any preconditions, made older, and looked at.  Every
write that takes effect is given a generation that is greater than all before it, also under a key that was deleted
meanwhile.  So the version that a write returned is that of its object until somebody writes or deletes the object, and
never again (`Store.exact_of_few_writes`).
-/
namespace Intake
namespace Store

/-! ## Histories -/

inductive Act where
  | put (key : String) (body : Octets) (precondition : Precondition) (now : Timestamp)
  | delete (key : String) (precondition : Precondition)
  | backdate (key : String) (age : Int)
  | get (key : String)
  | head (key : String)
  | list (start : String) (delimiter : Option String)
  | keys

namespace Act

abbrev Reply : Act → Type
  | .put .. => PutResult
  | .delete .. => DeleteResult
  | .backdate .. => Option Unit
  | .get _ => Option Octets
  | .head _ => Option ObjectInfo
  | .list .. => Listing
  | .keys => List String

def answer : (act : Act) → Store → act.Reply × Store
  | .put key body precondition now, store => store.put key body precondition now
  | .delete key precondition, store => store.delete key precondition
  | .backdate key age, store => ((store.backdate? key age).map fun _ => (), (store.backdate? key age).getD store)
  | .get key, store => ((store.get? key).map (·.body), store)
  | .head key, store => (store.head? key, store)
  | .list start delimiter, store => (store.list start delimiter, store)
  | .keys, store => (store.keys, store)

def isPut : Act → Bool
  | .put .. => true
  | _ => false

def target? : Act → Option String
  | .put key .. | .delete key _ => some key
  | _ => none

def version? : (act : Act) → act.Reply → Option String
  | .put .., .written version => some version
  | _, _ => none

/-- The reply says that a write or a deletion has taken place. -/
def isDone : (act : Act) → act.Reply → Bool
  | .put .., .written _ => true
  | .delete .., .deleted => true
  | _, _ => false

/-- The call is a write or a deletion that takes effect. -/
def Takes (act : Act) (store : Store) : Prop := act.isDone (act.answer store).1 = true

instance decidableTakes (act : Act) (store : Store) : Decidable (act.Takes store) := inferInstanceAs (Decidable (_ = true))

end Act

def after (store : Store) (acts : List Act) : Store := acts.foldl (fun store act => (act.answer store).2) store

/-- The versions that are returned in the course of some calls. -/
def versions : Store → List Act → List String
  | _, [] => []
  | store, act :: rest => (act.version? (act.answer store).1).toList ++ versions (act.answer store).2 rest

/-- None of the calls has written or deleted the object under a key. -/
def Untouched (key : String) : Store → List Act → Prop
  | _, [] => True
  | store, act :: rest => ¬ (act.target? = some key ∧ act.Takes store) ∧ Untouched key (act.answer store).2 rest

instance decidableUntouched (key : String) : (store : Store) → (acts : List Act) → Decidable (Untouched key store acts)
  | _, [] => inferInstanceAs (Decidable True)
  | store, act :: rest =>
    have := decidableUntouched key (act.answer store).2 rest
    inferInstanceAs (Decidable (_ ∧ _))

/-! ## One call -/

/-- **What a call can do to a store**: a write, a deletion, an object made older, or nothing. -/
inductive Effect (store : Store) : (act : Act) → act.Reply → Store → Prop
  | wrote {key : String} {body : Octets} {precondition : Precondition} {now : Timestamp}
    (hfree : refuses? precondition (store.get? key) = none) :
    Effect store (.put key body precondition now) (.written (decimal store.nextGeneration)) (store.write key body now)
  | removed {key : String} {precondition : Precondition} (hthere : (store.get? key).isSome = true)
    (hfree : refuses? precondition (store.get? key) = none) :
    Effect store (.delete key precondition) .deleted (store.remove key)
  | aged {key : String} {age : Int} {store' : Store} (h : store.backdate? key age = some store') :
    Effect store (.backdate key age) (some ()) store'
  | nothing {act : Act} {reply : act.Reply} (h : act.isDone reply = false) : Effect store act reply store

theorem effect_answer (act : Act) (store : Store) : Effect store act (act.answer store).1 (act.answer store).2 := by
  cases act with
  | put key body precondition now =>
    obtain ⟨current, h⟩ | ⟨hfree, h⟩ := store.put_cases key body precondition now
    · rw [show Act.answer (.put key body precondition now) store = _ from h]
      exact .nothing rfl
    · rw [show Act.answer (.put key body precondition now) store = _ from h]
      exact .wrote hfree
  | delete key precondition =>
    obtain ⟨result, hresult, h⟩ | ⟨hthere, hfree, h⟩ := store.delete_cases key precondition
    · rw [show Act.answer (.delete key precondition) store = _ from h]
      refine .nothing ?_
      cases result with
      | deleted => exact absurd rfl hresult
      | notFound => rfl
      | conflict current => rfl
    · rw [show Act.answer (.delete key precondition) store = _ from h]
      exact .removed hthere hfree
  | backdate key age =>
    rw [Act.answer]
    cases h : store.backdate? key age with
    | none => exact .nothing rfl
    | some store' => exact .aged h
  | get key => exact .nothing rfl
  | head key => exact .nothing rfl
  | list start delimiter => exact .nothing rfl
  | keys => exact .nothing rfl

def generation? (store : Store) (key : String) : Option Nat := (store.get? key).map (·.generation)

theorem generation?_of_backdate? {store store' : Store} {key : String} {age : Int}
    (h : store.backdate? key age = some store') (other : String) :
    store'.generation? other = store.generation? other ∧ store'.nextGeneration = store.nextGeneration := by
  unfold backdate? at h
  split at h
  · cases h
  · rename_i object hobject
    cases h
    refine ⟨?_, rfl⟩
    by_cases hother : other = key
    · subst hother
      exact (congrArg (Option.map _) (Fields.get?_insert_self ..)).trans
        (congrArg (Option.map StoredObject.generation) hobject).symm
    · exact congrArg (Option.map _) (Fields.get?_insert_of_ne _ _ hother)

variable {store : Store} {act : Act} {key : String} {acts : List Act} {g : Nat}

theorem nextGeneration_answer (act : Act) (store : Store) : store.nextGeneration ≤ (act.answer store).2.nextGeneration ∧
    (act.answer store).2.nextGeneration ≤ store.nextGeneration + if act.isPut then 1 else 0 := by
  have heffect := effect_answer act store
  generalize (act.answer store).1 = reply, (act.answer store).2 = store' at heffect
  cases heffect with
  | wrote => exact ⟨Nat.le_succ _, Nat.le_refl _⟩
  | removed => exact ⟨Nat.le_refl _, Nat.le_add_right _ _⟩
  | aged h =>
    rw [(generation?_of_backdate? h "").2]
    exact ⟨Nat.le_refl _, Nat.le_add_right _ _⟩
  | nothing => exact ⟨Nat.le_refl _, Nat.le_add_right _ _⟩

/-- A call that neither writes nor deletes an object leaves its generation. -/
theorem generation?_answer (h : ¬ (act.target? = some key ∧ act.Takes store)) :
    (act.answer store).2.generation? key = store.generation? key := by
  have heffect := effect_answer act store
  unfold Act.Takes at h
  generalize (act.answer store).1 = reply, (act.answer store).2 = store' at heffect h
  cases heffect with
  | wrote =>
    rw [generation?, get?_write_of_ne _ _ _ fun e => h ⟨congrArg some e.symm, rfl⟩, generation?]
  | removed =>
    rw [generation?, get?_remove_of_ne _ fun e => h ⟨congrArg some e.symm, rfl⟩, generation?]
  | aged hbackdate => exact (generation?_of_backdate? hbackdate key).1
  | nothing => rfl

/-- A generation was given out, and it is not that of the object under a key. -/
structure Spent (key : String) (g : Nat) (store : Store) : Prop where
  given : g < store.nextGeneration
  elsewhere : store.generation? key ≠ some g

/-- A call that writes or deletes an object takes all generations from it that were given out before. -/
theorem spent_of_takes (hg : g < store.nextGeneration) (htarget : act.target? = some key) (h : act.Takes store) :
    Spent key g (act.answer store).2 := by
  refine ⟨Nat.lt_of_lt_of_le hg (nextGeneration_answer act store).1, ?_⟩
  have heffect := effect_answer act store
  unfold Act.Takes at h
  generalize (act.answer store).1 = reply, (act.answer store).2 = store' at heffect h
  cases heffect with
  | wrote =>
    obtain rfl := Option.some.inj htarget
    rw [generation?, get?_write_self]
    exact fun e => Nat.lt_irrefl _ (Option.some.inj e ▸ hg)
  | removed =>
    obtain rfl := Option.some.inj htarget
    rw [generation?, get?_remove_self]
    exact fun e => by cases e
  | aged => cases htarget
  | nothing hidle => rw [hidle] at h; cases h

theorem Spent.answer (hspent : Spent key g store) (act : Act) : Spent key g (act.answer store).2 := by
  by_cases h : act.target? = some key ∧ act.Takes store
  · exact spent_of_takes hspent.given h.1 h.2
  · refine ⟨Nat.lt_of_lt_of_le hspent.given (nextGeneration_answer act store).1, ?_⟩
    rw [generation?_answer h]
    exact hspent.elsewhere

/-! ## Many calls -/

theorem after_append (store : Store) (acts more : List Act) : store.after (acts ++ more) = (store.after acts).after more :=
  List.foldl_append

theorem nextGeneration_after (acts : List Act) (store : Store) :
    (store.after acts).nextGeneration ≤ store.nextGeneration + acts.countP Act.isPut := by
  induction acts generalizing store with
  | nil => exact Nat.le_refl _
  | cons act rest ih =>
    have hstep := (nextGeneration_answer act store).2
    have hrest := ih (act.answer store).2
    rw [List.countP_cons]
    exact Nat.le_trans hrest (by omega)

theorem Spent.after (hspent : Spent key g store) (acts : List Act) : Spent key g (store.after acts) := by
  induction acts generalizing store with
  | nil => exact hspent
  | cons act rest ih => exact ih (hspent.answer act)

/-- **An object has a generation that was given out before exactly if it has had it all the time**, and nobody has written
or deleted it since. -/
theorem generation?_after_iff (hg : g < store.nextGeneration) : (store.after acts).generation? key = some g ↔
    store.generation? key = some g ∧ Untouched key store acts := by
  induction acts generalizing store with
  | nil => exact ⟨fun h => ⟨h, trivial⟩, And.left⟩
  | cons act rest ih =>
    by_cases h : act.target? = some key ∧ act.Takes store
    · -- the object has lost the generation, and no later call gives it back
      have hspent := (spent_of_takes hg h.1 h.2).after rest
      exact ⟨fun hsame => absurd hsame hspent.elsewhere, fun hsame => absurd h hsame.2.1⟩
    · have hgiven : g < (act.answer store).2.nextGeneration :=
        Nat.lt_of_lt_of_le hg (nextGeneration_answer act store).1
      have hrest := ih hgiven
      rw [generation?_answer h] at hrest
      exact hrest.trans ⟨fun hsame => ⟨hsame.1, h, hsame.2⟩, fun hsame => ⟨hsame.1, hsame.2.2⟩⟩

theorem generation?_after_write_iff {body : Octets} {now : Timestamp} :
    ((store.write key body now).after acts).generation? key = some store.nextGeneration ↔
      Untouched key (store.write key body now) acts := by
  have hsame : (store.write key body now).generation? key = some store.nextGeneration := by
    rw [generation?, get?_write_self]
    rfl
  rw [generation?_after_iff (Nat.lt_succ_self _), and_iff_right hsame]

/-- **The versions that are returned are the texts of greater and greater generations.** -/
theorem exists_versions_eq (acts : List Act) (store : Store) : ∃ generations : List Nat,
    store.versions acts = generations.map decimal ∧ generations.Pairwise (· < ·) ∧
      ∀ g ∈ generations, store.nextGeneration ≤ g := by
  induction acts generalizing store with
  | nil => exact ⟨[], rfl, .nil, by simp⟩
  | cons act rest ih =>
    obtain ⟨generations, hversions, hordered, hlater⟩ := ih (act.answer store).2
    have hnext := (nextGeneration_answer act store).1
    rw [versions, hversions]
    have heffect := effect_answer act store
    generalize (act.answer store).1 = reply, (act.answer store).2 = store' at heffect hlater hnext
    cases heffect with
    | wrote =>
      exact ⟨store.nextGeneration :: generations, rfl, List.pairwise_cons.2 ⟨hlater, hordered⟩,
        List.forall_mem_cons.2 ⟨Nat.le_refl _, fun g hg => Nat.le_trans hnext (hlater g hg)⟩⟩
    | removed => exact ⟨generations, rfl, hordered, hlater⟩
    | aged => exact ⟨generations, rfl, hordered, fun g hg => Nat.le_trans hnext (hlater g hg)⟩
    | nothing hidle =>
      refine ⟨generations, ?_, hordered, hlater⟩
      cases act with
      | put key body precondition now =>
        cases reply with
        | written version => cases hidle
        | conflict current => rfl
      | _ => rfl

/-! ## Preconditions -/

theorem generation?_eq_some : store.generation? key = some g ↔
    ∃ object, store.get? key = some object ∧ object.generation = g :=
  Option.map_eq_some_iff

theorem refuses?_version_iff (hg : g < 2 ^ 63) : refuses? (.version (decimal g)) (store.get? key) = none ↔
    store.generation? key = some g := by
  rw [generation?]
  cases store.get? key with
  | none => simp [refuses?]
  | some object =>
    have hsame : isVersion object.generation (decimal g) = true ↔ object.generation = g :=
      ⟨eq_of_isVersion_decimal, fun e => e ▸ isVersion_decimal (e ▸ hg)⟩
    rw [Option.map_some, Option.some.injEq, ← hsame]
    cases h : isVersion object.generation (decimal g) <;> simp [refuses?, h]

theorem takes_put_iff {body : Octets} {precondition : Precondition} {now : Timestamp} :
    Act.Takes (.put key body precondition now) store ↔ refuses? precondition (store.get? key) = none := by
  show Act.isDone (.put key body precondition now) (store.put key body precondition now).1 = true ↔ _
  rw [put]
  cases refuses? precondition (store.get? key) with
  | none => exact iff_of_true rfl rfl
  | some current => exact iff_of_false (fun h => by cases h) fun h => by cases h

theorem takes_delete_iff {precondition : Precondition} : Act.Takes (.delete key precondition) store ↔
    (store.get? key).isSome = true ∧ refuses? precondition (store.get? key) = none := by
  show Act.isDone (.delete key precondition) (store.delete key precondition).1 = true ↔ _
  rw [delete]
  cases store.get? key with
  | none => exact iff_of_false (fun h => by cases h) fun h => by cases h.1
  | some object =>
    simp only [Option.isSome_some, true_and]
    cases refuses? precondition (some object) with
    | none => exact iff_of_true rfl rfl
    | some current => exact iff_of_false (fun h => by cases h) fun h => by cases h

theorem takes_delete_version_iff (hg : g < 2 ^ 63) : Act.Takes (.delete key (.version (decimal g))) store ↔
    store.generation? key = some g := by
  rw [takes_delete_iff, refuses?_version_iff hg]
  refine ⟨And.right, fun h => ⟨?_, h⟩⟩
  obtain ⟨object, hobject, -⟩ := generation?_eq_some.1 h
  rw [hobject]
  rfl

/-- A call that takes effect does to the object under its key what it says, and leaves all others. -/
def Act.Done (store : Store) : Act → Store → Prop
  | .put key body _ now, store' =>
    store'.get? key = some ⟨body, store.nextGeneration, now⟩ ∧ ∀ other, other ≠ key → store'.get? other = store.get? other
  | .delete key _, store' => store'.get? key = none ∧ ∀ other, other ≠ key → store'.get? other = store.get? other
  | _, _ => False

theorem done_of_takes (h : act.Takes store) : act.Done store (act.answer store).2 := by
  have heffect := effect_answer act store
  unfold Act.Takes at h
  generalize (act.answer store).1 = reply, (act.answer store).2 = store' at heffect h
  cases heffect with
  | wrote => exact ⟨get?_write_self .., fun other hother => get?_write_of_ne _ _ _ hother⟩
  | removed => exact ⟨get?_remove_self .., fun other hother => get?_remove_of_ne _ hother⟩
  | aged => cases h
  | nothing hidle => rw [hidle] at h; cases h

theorem answer_of_not_takes (htarget : act.target? = some key) (h : ¬ act.Takes store) : (act.answer store).2 = store := by
  have heffect := effect_answer act store
  unfold Act.Takes at h
  generalize (act.answer store).1 = reply, (act.answer store).2 = store' at heffect h
  cases heffect with
  | wrote => exact absurd rfl h
  | removed => exact absurd rfl h
  | aged => cases htarget
  | nothing => rfl

/-- **What is true of a store after a history**, whatever its calls were. -/
structure Exact (history : List Act) (store : Store) : Prop where
  -- every write that took effect was given a greater generation than all before it
  increasing : ∃ generations : List Nat, versions empty history = generations.map decimal ∧ generations.Pairwise (· < ·)
  -- what depends on the version of an earlier write takes effect exactly if nobody has touched the object since
  matching : ∀ before key body precondition now since version,
    history = before ++ .put key body precondition now :: since →
      ((empty.after before).put key body precondition now).1 = .written version →
        (∀ body' now', Act.Takes (.put key body' (.version version) now') store ↔
          Untouched key ((empty.after before).put key body precondition now).2 since) ∧
        (Act.Takes (.delete key (.version version)) store ↔
          Untouched key ((empty.after before).put key body precondition now).2 since)
  -- what depends on an absence takes effect exactly if nothing is there
  creating : ∀ key body now, Act.Takes (.put key body .absent now) store ↔ store.get? key = none
  -- a write or a deletion that takes effect does what it says
  done : ∀ act : Act, act.Takes store → act.Done store (act.answer store).2
  -- a write or a deletion that does not take effect changes nothing, not even the generation that comes next
  refused : ∀ (act : Act) key, act.target? = some key → ¬ act.Takes store → (act.answer store).2 = store

/-- **Generations are exact over every history** of fewer than `2 ^ 63 - 1` writes. -/
theorem exact_of_few_writes (history : List Act) (hfew : history.countP Act.isPut < 2 ^ 63 - 1) :
    Exact history (empty.after history) where
  increasing := by
    obtain ⟨generations, hversions, hordered, -⟩ := exists_versions_eq history empty
    exact ⟨generations, hversions, hordered⟩
  matching := by
    rintro before key body precondition now since version rfl hwritten
    obtain ⟨current, hput⟩ | ⟨hfree, hput⟩ := (empty.after before).put_cases key body precondition now
    · rw [hput] at hwritten
      cases hwritten
    rw [hput] at hwritten ⊢
    obtain rfl := PutResult.written.inj hwritten
    have hnext := nextGeneration_after before empty
    have hcount : before.countP Act.isPut ≤ (before ++ .put key body precondition now :: since).countP Act.isPut := by
      rw [List.countP_append]
      exact Nat.le_add_right _ _
    -- beyond 63 bits a version would not be read back as the number that it is
    have hbound : (empty.after before).nextGeneration < 2 ^ 63 := by
      have hone : empty.nextGeneration = 1 := rfl
      omega
    have hexact : (empty.after (before ++ .put key body precondition now :: since)).generation? key =
        some (empty.after before).nextGeneration ↔ Untouched key ((empty.after before).write key body now) since := by
      rw [after_append, ← generation?_after_write_iff]
      exact iff_of_eq (congrArg (fun result => (after result.2 since).generation? key = _) hput)
    refine ⟨fun body' now' => ?_, ?_⟩
    · rw [takes_put_iff, refuses?_version_iff hbound, hexact]
    · rw [takes_delete_version_iff hbound, hexact]
  creating key body now := by
    rw [takes_put_iff]
    exact ⟨eq_none_of_refuses?_absent, fun h => by rw [h]; rfl⟩
  done _ := done_of_takes
  refused _ _ := answer_of_not_takes

/-- An object is written, made older, deleted and written again; another is written between. -/
def recreated : List Act :=
  [.put "d/t/_bqlock" [1] .absent (.ofNanos 0), .backdate "d/t/_bqlock" 60, .put "d/t/a" [] .always (.ofNanos 1),
    .delete "d/t/_bqlock" (.version "1"), .put "d/t/_bqlock" [2] .absent (.ofNanos 2), .list "d/" (some "/")]

theorem exact_of_few_writes_recreated : recreated.countP Act.isPut < 2 ^ 63 - 1 ∧
    ¬ Act.Takes (.delete "d/t/_bqlock" (.version "1")) (empty.after recreated) ∧
      Act.Takes (.put "d/t/_bqlock" [3] (.version "3") (.ofNanos 3)) (empty.after recreated) := by
  have hfew : recreated.countP Act.isPut < 2 ^ 63 - 1 := by decide
  have hexact := exact_of_few_writes recreated hfew
  refine ⟨hfew, fun h => ?_, ?_⟩
  · refine absurd ((hexact.matching [] _ _ _ _ _ "1" rfl (by decide)).2.1 h) ?_
    decide
  · refine ((hexact.matching (recreated.take 4) _ _ _ _ _ "3" rfl (by decide)).1 [3] (.ofNanos 3)).2 ?_
    decide

end Store
end Intake
