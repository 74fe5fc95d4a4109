import Intake.Proofs.Reading
import Intake.Proofs.JobName
import Intake.Proofs.Store
/-!
# Site — what the engine works on, and all that may come of its calls

A store, the jobs that the warehouse has accepted, and the suffixes that were drawn.  A call to the store does what the
store does, at some instant, or fails without effect.  A job may be turned down, or accepted if none of its id was; in
either case the reply may be a fault.  What is said of jobs, the clocks and the rest are left open.
-/
namespace Intake

/-- What the engine works on. -/
structure Site where
  store : Store
  accepted : List Job
  drawn : List String

namespace Site

def ids (site : Site) : List String := site.accepted.map (·.id)

/-- **What may come of a call.** -/
def Answers : (c : CloudCall) → Site → c.Reply → Site → Prop
  | .put key body precondition, site, reply, site' =>
    CloudCall.Failed (.put key body precondition) reply ∧ site' = site ∨
      ∃ now, reply = .ok (site.store.put key body precondition now).1 ∧
        site' = { site with store := (site.store.put key body precondition now).2 }
  | .delete key precondition, site, reply, site' =>
    CloudCall.Failed (.delete key precondition) reply ∧ site' = site ∨
      reply = .ok (site.store.delete key precondition).1 ∧
        site' = { site with store := (site.store.delete key precondition).2 }
  | .submit job, site, reply, site' =>
    (∃ fault, reply = .error fault) ∧ site' = site ∨
      job.id ∉ site.ids ∧ site' = { site with accepted := site.accepted ++ [job] }
  | .freshId, site, reply, site' =>
    JobId.IsSuffix reply ∧ reply ∉ site.drawn ∧ site' = { site with drawn := reply :: site.drawn }
  | .get key, site, reply, site' =>
    site' = site ∧ (site.store.reply? (.get key) = some reply ∨ CloudCall.Failed (.get key) reply)
  | .head key, site, reply, site' =>
    site' = site ∧ (site.store.reply? (.head key) = some reply ∨ CloudCall.Failed (.head key) reply)
  | .list start delimiter, site, reply, site' =>
    site' = site ∧ (site.store.reply? (.list start delimiter) = some reply ∨
      CloudCall.Failed (.list start delimiter) reply)
  | _, site, _, site' => site' = site

variable {c : CloudCall} {site site' : Site}

/-- A passive call leaves everything as it is. -/
theorem Answers.eq_of_isPassive {reply : c.Reply} (h : Answers c site reply site') (hc : c.IsPassive) :
    site' = site := by
  cases c with
  | get | head | list => exact h.1
  | put | delete | submit | freshId => exact hc.elim
  | _ => exact h

/-- A call that looks at the store is replied to by the store, or fails. -/
theorem Answers.reply?_eq {reply : c.Reply} (h : Answers c site reply site') (hc : c.IsReading) :
    site.store.reply? c = some reply ∨ c.Failed reply := by
  cases c with
  | get | head | list => exact h.2
  | _ => exact hc.elim

/-- What is said of an object is said of the one that was asked for. -/
theorem Answers.key_of_head {key : String} {object : ObjectInfo} {reply : Except StoreFault (Option ObjectInfo)}
    (h : Answers (.head key) site reply site') (hreply : reply = .ok (some object)) : object.key = key := by
  obtain ⟨-, hstore | ⟨fault, e, -⟩⟩ := h
  · rw [hreply] at hstore
    have hhead : site.store.head? key = some object := Except.ok.inj (Option.some.inj hstore)
    obtain ⟨found, -, rfl⟩ := Option.map_eq_some_iff.1 hhead
    rfl
  · rw [hreply] at e
    cases e

variable {key : String} {body : Octets} {precondition : Precondition}

/-- **A write took place, or it left everything as it was.** -/
theorem Answers.put_cases {reply : Except StoreFault PutResult}
    (h : Answers (.put key body precondition) site reply site') :
    site' = site ∧ (∀ version, reply ≠ .ok (.written version)) ∨
      reply = .ok (.written (decimal site.store.nextGeneration)) ∧
        Store.refuses? precondition (site.store.get? key) = none ∧
        ∃ now, site' = { site with store := site.store.write key body now } := by
  obtain ⟨⟨fault, e, -⟩, rfl⟩ | ⟨now, e, rfl⟩ := h
  · exact .inl ⟨rfl, by rw [e]; nofun⟩
  · obtain ⟨current, hput⟩ | ⟨hfree, hput⟩ := site.store.put_cases key body precondition now
    · exact .inl ⟨by rw [hput], by rw [e, hput]; nofun⟩
    · exact .inr ⟨by rw [e, hput], hfree, now, by rw [hput]⟩

/-- **A deletion took place, or it left everything as it was.** -/
theorem Answers.delete_cases {reply : Except StoreFault DeleteResult}
    (h : Answers (.delete key precondition) site reply site') :
    site' = site ∧ reply ≠ .ok .deleted ∨
      reply = .ok .deleted ∧ Store.refuses? precondition (site.store.get? key) = none ∧
        (site.store.get? key).isSome = true ∧ site' = { site with store := site.store.remove key } := by
  obtain ⟨⟨fault, e, -⟩, rfl⟩ | ⟨e, rfl⟩ := h
  · exact .inl ⟨rfl, by rw [e]; nofun⟩
  · obtain ⟨result, hne, hdel⟩ | ⟨hthere, hfree, hdel⟩ := site.store.delete_cases key precondition
    · refine .inl ⟨by rw [hdel], ?_⟩
      rw [e, hdel]
      exact fun h => hne (Except.ok.inj h)
    · exact .inr ⟨by rw [e, hdel], hfree, hthere, by rw [hdel]⟩

/-- An object that is there is deleted, if nothing is asked of it and the call does not fail. -/
theorem Answers.delete_always {reply : Except StoreFault DeleteResult} {result : DeleteResult}
    (h : Answers (.delete key .always) site reply site') (hthere : (site.store.get? key).isSome = true)
    (hok : reply = .ok result) : site' = { site with store := site.store.remove key } := by
  obtain ⟨⟨fault, e, -⟩, -⟩ | ⟨-, rfl⟩ := h
  · rw [hok] at e
    cases e
  · obtain ⟨object, hobject⟩ := Option.isSome_iff_exists.1 hthere
    simp [Store.delete, hobject, Store.refuses?]

/-- What is under a key after a call was there before it, or is younger. -/
theorem Answers.since {reply : c.Reply} (h : Answers c site reply site') (key : String) :
    Store.Since key site.store site'.store := by
  cases c with
  | put =>
    obtain ⟨rfl, -⟩ | ⟨-, -, now, rfl⟩ := h.put_cases
    · exact .refl _ _
    · exact .write ..
  | delete =>
    obtain ⟨rfl, -⟩ | ⟨-, -, -, rfl⟩ := h.delete_cases
    · exact .refl _ _
    · exact .remove ..
  | submit => obtain ⟨-, rfl⟩ | ⟨-, rfl⟩ := h <;> exact .refl _ _
  | freshId =>
    obtain ⟨-, -, rfl⟩ := h
    exact .refl _ _
  | _ =>
    rw [h.eq_of_isPassive trivial]
    exact .refl _ _

/-- **What a call does to the object under a key**: nothing, unless it writes or deletes just that. -/
theorem Answers.get?_cases {reply : c.Reply} (h : Answers c site reply site') (key : String) :
    site'.store.get? key = site.store.get? key ∨
      (∃ body precondition now, c = .put key body precondition ∧
        Store.refuses? precondition (site.store.get? key) = none ∧
        site' = { site with store := site.store.write key body now }) ∨
      ∃ precondition, c = .delete key precondition ∧ Store.refuses? precondition (site.store.get? key) = none ∧
        site' = { site with store := site.store.remove key } := by
  cases c with
  | put other body precondition =>
    obtain ⟨rfl, -⟩ | ⟨-, hfree, now, rfl⟩ := h.put_cases
    · exact .inl rfl
    · by_cases hkey : key = other
      · subst hkey
        exact .inr (.inl ⟨body, precondition, now, rfl, hfree, rfl⟩)
      · exact .inl (Store.get?_write_of_ne _ _ _ hkey)
  | delete other precondition =>
    obtain ⟨rfl, -⟩ | ⟨-, hfree, -, rfl⟩ := h.delete_cases
    · exact .inl rfl
    · by_cases hkey : key = other
      · subst hkey
        exact .inr (.inr ⟨precondition, rfl, hfree, rfl⟩)
      · exact .inl (Store.get?_remove_of_ne _ hkey)
  | submit => obtain ⟨-, rfl⟩ | ⟨-, rfl⟩ := h <;> exact .inl rfl
  | freshId =>
    obtain ⟨-, -, rfl⟩ := h
    exact .inl rfl
  | _ =>
    rw [h.eq_of_isPassive trivial]
    exact .inl rfl

/-- A job that was not accepted left everything as it was. -/
theorem Answers.submit_cases {job : Job} {reply : Except WarehouseFault JobStatus}
    (h : Answers (.submit job) site reply site') :
    site' = site ∨ job.id ∉ site.ids ∧ site' = { site with accepted := site.accepted ++ [job] } :=
  h.imp (·.2) id

/-- Suffixes that were drawn stay so, and accepted jobs too. -/
theorem Answers.mono {reply : c.Reply} (h : Answers c site reply site') :
    (∀ suffix ∈ site.drawn, suffix ∈ site'.drawn) ∧ ∀ id ∈ site.ids, id ∈ site'.ids := by
  cases c with
  | put =>
    obtain ⟨rfl, -⟩ | ⟨-, -, now, rfl⟩ := h.put_cases <;> exact ⟨fun _ h => h, fun _ h => h⟩
  | delete =>
    obtain ⟨rfl, -⟩ | ⟨-, -, -, rfl⟩ := h.delete_cases <;> exact ⟨fun _ h => h, fun _ h => h⟩
  | submit job =>
    obtain rfl | ⟨-, rfl⟩ := h.submit_cases
    · exact ⟨fun _ h => h, fun _ h => h⟩
    · exact ⟨fun _ h => h, fun id hid => by rw [ids, List.map_append]; exact List.mem_append_left _ hid⟩
  | freshId =>
    obtain ⟨-, -, rfl⟩ := h
    exact ⟨fun _ h => List.mem_cons_of_mem _ h, fun _ h => h⟩
  | _ =>
    rw [h.eq_of_isPassive trivial]
    exact ⟨fun _ h => h, fun _ h => h⟩

/-! ## Without others -/

/-- **What a program may come to that nobody disturbs**, call by call. -/
inductive Reaches {α : Type} : CloudProgram α → Site → CloudProgram α → Site → Prop where
  | refl (p : CloudProgram α) (site : Site) : Reaches p site p site
  | call {c : CloudCall} {next : c.Reply → CloudProgram α} {reply : c.Reply} {site mid site' : Site} {p : CloudProgram α}
      (hanswers : Answers c site reply mid) (hrest : Reaches (next reply) mid p site') :
    Reaches (Program.ask c next) site p site'

theorem Reaches.trans {α : Type} {p p' p'' : CloudProgram α} {site site' site'' : Site} (h : Reaches p site p' site')
    (h' : Reaches p' site' p'' site'') : Reaches p site p'' site'' := by
  induction h with
  | refl => exact h'
  | call hanswers _ ih => exact .call hanswers (ih h')

def undisturbed (ok : CloudCall → Site → Prop) : Surroundings Cloud Site := ⟨ok, Answers⟩

/-- **What every call leaves true that the program may make, it leaves true all the time.** -/
theorem Reaches.keeps {α : Type} {ok : CloudCall → Site → Prop} {post : α → Site → Prop} {inv : Site → Prop}
    (hcall : ∀ {c site reply site'}, ok c site → Answers c site reply site' → inv site → inv site')
    {p p' : CloudProgram α} (h : Reaches p site p' site') (hp : p.Keeps (undisturbed ok) post site) (hs : inv site) :
    inv site' := by
  induction h with
  | refl => exact hs
  | call hanswers _ ih => exact ih (hp.2 _ _ hanswers) (hcall hp.1 hanswers hs)

/-- What a program promises is so when it returns. -/
theorem Reaches.post {α : Type} {ok : CloudCall → Site → Prop} {post : α → Site → Prop} {p : CloudProgram α} {a : α}
    (h : Reaches p site (.done a) site') (hp : p.Keeps (undisturbed ok) post site) : post a site' := by
  generalize hend : (Program.done a : CloudProgram α) = p' at h
  induction h with
  | refl =>
    subst hend
    exact hp
  | call hanswers _ ih => exact ih (hp.2 _ _ hanswers) hend

end Site
end Intake
