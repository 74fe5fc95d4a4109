import Intake.Proofs.Clock
import Intake.Proofs.Files
/-!
# Effort — what is left to be done by a subscriber

A turn of a subscriber may take no time at all.  But then it has come nearer to the end of the backlog: a pointer was
taken away, the next part of the first one was submitted, or its first part was, or the lock was set by hand, so that the
next turn takes time (`Store.rank`); or it has asked once more for the job in the lock, which is running for finitely many
questions.  Together with the time that is left this is a measure that every turn makes smaller (`World.effort_lt`).
-/
namespace Intake

namespace JobId

/-- So many parts may come after the one with this name, if there are no more than a bound: none without a tag. -/
def partsAfter (bound : Nat) (id : String) : Nat := (splitPart id).2.elim 0 fun index => bound - index + 1

theorem partsAfter_le (bound : Nat) (id : String) : partsAfter bound id ≤ bound + 1 := by
  unfold partsAfter
  cases (splitPart id).2 with
  | none => exact Nat.zero_le _
  | some index => exact Nat.add_le_add_right (Nat.sub_le _ _) 1

/-- **The name of a marker's part**: it is read from the lock as it was written, or as set by hand, and it tells the marker
and the part, unless it is the last one. -/
structure NamesPart (jobPrefix marker : String) (bound part : Nat) (name : String) : Prop where
  read : LockBody.ofOctets? jobPrefix (Utf8.encode name) = some (.job name) ∨
    ∃ t, LockBody.ofOctets? jobPrefix (Utf8.encode name) = some (.manual t)
  isFor : isFor name jobPrefix marker = true
  tag : (splitPart name).2 = none ∨ (splitPart name).2 = some part ∧ part < bound

/-- The names of jobs have room for the tags of so many parts; the last one needs none. -/
def HasRoom (jobPrefix : String) (bound : Nat) : Prop :=
  ∀ marker s part, IsSuffix s → part + 1 < bound → Fits (make jobPrefix marker s) part

variable {jobPrefix marker s name : String} {bound part total : Nat}

theorem hasRoom_of_short (hshort : jobPrefix.utf8ByteSize + 49 ≤ maxLength) (hbound : bound ≤ 10 ^ 11) :
    HasRoom jobPrefix bound :=
  fun _ _ _ hs hpart => fits_of_room hs hshort (Nat.lt_of_succ_lt (Nat.lt_of_lt_of_le hpart hbound))

theorem namesPart_ofPart (hs : IsSuffix s) (hroom : HasRoom jobPrefix bound) (hpart : part < total)
    (htotal : total ≤ bound) (hbound : bound < 2 ^ 64) :
    NamesPart jobPrefix marker bound part (ofPart (make jobPrefix marker s) part total) := by
  have hfits : nextIndex part ≠ total → Fits (make jobPrefix marker s) part := fun hnext =>
    hroom marker s part hs (Nat.lt_of_lt_of_le (Nat.lt_of_le_of_ne hpart hnext) htotal)
  have hsmall : part < 2 ^ 64 := (Nat.lt_of_lt_of_le hpart htotal).trans hbound
  refine ⟨ofOctets?_ofPart hs hfits, (isFor_ofPart hs hsmall hfits).2 rfl, ?_⟩
  rw [splitPart_ofPart hs hsmall hfits]
  simp only
  split
  · exact .inl rfl
  · exact .inr ⟨rfl, Nat.lt_of_lt_of_le hpart htotal⟩

theorem namesPart_make (hs : IsSuffix s) : NamesPart jobPrefix marker bound part (make jobPrefix marker s) := by
  -- The name of the only part there is has no tag.
  have hlast : ofPart (make jobPrefix marker s) 0 1 = make jobPrefix marker s := ofPart_last rfl
  have hfits : nextIndex 0 ≠ 1 → Fits (make jobPrefix marker s) 0 := fun h => (h rfl).elim
  have hsplit := splitPart_make jobPrefix marker hs
  refine ⟨?_, isFor_iff.2 ⟨s, hs, by rw [hsplit]⟩, .inl (by rw [hsplit])⟩
  rw [← hlast]
  exact ofOctets?_ofPart hs hfits

/-- Fewer parts come after the next one. -/
theorem NamesPart.partsAfter_lt {id base : String} {index : Nat}
    (h : NamesPart jobPrefix marker bound (index + 1) name) (hsplit : splitPart id = (base, some index)) :
    partsAfter bound name < partsAfter bound id := by
  unfold partsAfter
  rw [hsplit]
  obtain htag | ⟨htag, hbound⟩ := h.tag
  · rw [htag]
    exact Nat.succ_pos _
  · rw [htag]
    simp only [Option.elim_some]
    omega

end JobId

/-! ## The backlog and the lock -/

namespace Store

variable {store : Store} {jobPrefix tablePrefix pointer id : String} {bound part : Nat}

/-- What is left to be done for the first pointer: all of it, unless the lock names a job for its marker. -/
def firstLeft (bound : Nat) (jobPrefix : String) : Option LockBody → Option String → Nat
  | some (.job id), some pointer =>
    if JobId.isFor id jobPrefix (Backlog.markerFor pointer) then JobId.partsAfter bound id else bound + 2
  | _, _ => bound + 2

/-- **How far it is to the end of the backlog**, or to a turn that takes time because the lock is set by hand. -/
def rank (bound : Nat) (jobPrefix tablePrefix : String) (store : Store) : Nat :=
  match store.lockBody jobPrefix tablePrefix with
  | some (.manual _) => 0
  | lock => (store.pointers tablePrefix).length * (bound + 3) +
    firstLeft bound jobPrefix lock (store.pointers tablePrefix).head?

/-- Ranks are below this. -/
def rankLimit (bound : Nat) : Nat := (bound + 1) * (bound + 3)

theorem firstLeft_le (bound : Nat) (jobPrefix : String) (lock : Option LockBody) (first : Option String) :
    firstLeft bound jobPrefix lock first ≤ bound + 2 := by
  unfold firstLeft
  split
  · split
    · exact (JobId.partsAfter_le bound _).trans (Nat.le_succ _)
    · exact Nat.le_refl _
  · exact Nat.le_refl _

theorem rank_lt (h : store.keys.length ≤ bound) : store.rank bound jobPrefix tablePrefix < rankLimit bound := by
  have hpointers : (store.pointers tablePrefix).length ≤ bound := (List.length_filter_le ..).trans h
  have hlimit : (store.pointers tablePrefix).length * (bound + 3) + (bound + 2) < rankLimit bound := by
    have hmul := Nat.mul_le_mul_right (bound + 3) (Nat.succ_le_succ hpointers)
    rw [Nat.succ_mul] at hmul
    exact Nat.lt_of_lt_of_le (Nat.add_lt_add_left (Nat.lt_succ_self _) _) hmul
  unfold rank
  split
  · exact Nat.lt_of_le_of_lt (Nat.zero_le _) hlimit
  · exact Nat.lt_of_le_of_lt (Nat.add_le_add_left (firstLeft_le ..) _) hlimit

theorem rank_of_none (h : store.lockBody jobPrefix tablePrefix = none) : store.rank bound jobPrefix tablePrefix =
    (store.pointers tablePrefix).length * (bound + 3) + (bound + 2) := by
  rw [rank, h]
  rfl

theorem rank_of_other (h : store.lockBody jobPrefix tablePrefix = some (.job id))
    (hfirst : (store.pointers tablePrefix).head? = some pointer)
    (hother : ¬ JobId.isFor id jobPrefix (Backlog.markerFor pointer) = true) :
    store.rank bound jobPrefix tablePrefix = (store.pointers tablePrefix).length * (bound + 3) + (bound + 2) := by
  rw [rank, h]
  simp only [firstLeft, hfirst, hother, Bool.false_eq_true, ↓reduceIte]

theorem rank_of_isFor (h : store.lockBody jobPrefix tablePrefix = some (.job id))
    (hfirst : (store.pointers tablePrefix).head? = some pointer)
    (hfor : JobId.isFor id jobPrefix (Backlog.markerFor pointer) = true) : store.rank bound jobPrefix tablePrefix =
      (store.pointers tablePrefix).length * (bound + 3) + JobId.partsAfter bound id := by
  rw [rank, h]
  simp only [firstLeft, hfirst, hfor, ↓reduceIte]

/-- **With a part of the first pointer in the lock, the parts after it and the other pointers are left.** -/
theorem rank_write_le {name : String} {now : Timestamp} (hfirst : (store.pointers tablePrefix).head? = some pointer)
    (hname : JobId.NamesPart jobPrefix (Backlog.markerFor pointer) bound part name) :
    (store.write (TableLock.keyOf tablePrefix) (Utf8.encode name) now).rank bound jobPrefix tablePrefix ≤
      (store.pointers tablePrefix).length * (bound + 3) + JobId.partsAfter bound name := by
  have hpointers : (store.write (TableLock.keyOf tablePrefix) (Utf8.encode name) now).pointers tablePrefix =
      store.pointers tablePrefix := pointers_write _ _ (Backlog.lock_notMem_folder tablePrefix)
  obtain hjob | ⟨t, hmanual⟩ := hname.read
  · rw [rank_of_isFor (store.lockBody_write_self .. |>.trans hjob) (hpointers ▸ hfirst) hname.isFor, hpointers]
  · rw [rank, store.lockBody_write_self, hmanual]
    exact Nat.zero_le _

/-- The first pointer is begun. -/
theorem rank_write_lt {name : String} {now : Timestamp} (hfirst : (store.pointers tablePrefix).head? = some pointer)
    (hname : JobId.NamesPart jobPrefix (Backlog.markerFor pointer) bound part name) :
    (store.write (TableLock.keyOf tablePrefix) (Utf8.encode name) now).rank bound jobPrefix tablePrefix <
      (store.pointers tablePrefix).length * (bound + 3) + (bound + 2) :=
  Nat.lt_of_le_of_lt (rank_write_le hfirst hname)
    (Nat.add_lt_add_left (Nat.lt_succ_of_le (JobId.partsAfter_le bound name)) _)

/-- The first pointer is taken away, and the next one begun. -/
theorem rank_write_remove_lt {first name : String} {now : Timestamp}
    (hfirst : (store.pointers tablePrefix).head? = some first)
    (hnext : ((store.remove first).pointers tablePrefix).head? = some pointer)
    (hname : JobId.NamesPart jobPrefix (Backlog.markerFor pointer) bound part name) :
    ((store.remove first).write (TableLock.keyOf tablePrefix) (Utf8.encode name) now).rank bound jobPrefix tablePrefix <
      (store.pointers tablePrefix).length * (bound + 3) := by
  obtain ⟨rest, hrest⟩ := List.head?_eq_some_iff.1 hfirst
  have hless : ((store.remove first).write (TableLock.keyOf tablePrefix) (Utf8.encode name) now).rank bound jobPrefix
      tablePrefix < ((store.remove first).pointers tablePrefix).length * (bound + 3) + (bound + 2) :=
    rank_write_lt hnext hname
  rw [pointers_remove_head hrest] at hless
  rw [hrest, List.length_cons, Nat.succ_mul]
  exact hless.trans (Nat.add_lt_add_left (Nat.lt_succ_self _) _)

end Store

/-! ## The measure -/

namespace World

variable {w w' : World} {settings : Settings} {tablePrefix : String} {deadline : Duration} {bound : Nat}

/-- The job in the lock, if one is named, is running for so many more questions; they count only where a question takes
no time. -/
def questionsLeft (settings : Settings) (tablePrefix : String) (w : World) : Nat :=
  if settings.jobPoll ≤ settings.jobWait then 0
  else match w.bucket.store.lockBody settings.jobPrefix tablePrefix with
    | some (.job id) => w.warehouse.left id
    | _ => 0

theorem questionsLeft_lt (h : settings.jobPoll ≤ settings.jobWait ∨ ∀ script, w.Follows script → script.Ends) :
    questionsLeft settings tablePrefix w < 2 ^ 32 := by
  unfold questionsLeft
  split
  · exact Nat.two_pow_pos 32
  · rename_i hslow
    split
    · exact ScriptedWarehouse.left_lt (fun script hscript => h.resolve_left hslow script (.inl hscript)) _
    · exact Nat.two_pow_pos 32

/-- How far it is to the end of the backlog of a world. -/
def rank (settings : Settings) (bound : Nat) (tablePrefix : String) (w : World) : Nat :=
  w.bucket.store.rank bound settings.jobPrefix tablePrefix

/-- **What is left to be done** before a time. -/
def effort (settings : Settings) (bound : Nat) (tablePrefix : String) (deadline : Duration) (w : World) : Nat :=
  -- When time passes others may fill the backlog, and a new job brings questions of its own.
  ((deadline - w.elapsed) * Store.rankLimit bound + rank settings bound tablePrefix w) * 2 ^ 32 +
    questionsLeft settings tablePrefix w

/-- **Something has been done**: time has passed, it is not so far to the end of the backlog, or a question was asked. -/
def Advances (settings : Settings) (bound : Nat) (tablePrefix : String) (w w' : World) : Prop :=
  w.elapsed < w'.elapsed ∨ w'.elapsed = w.elapsed ∧
    (rank settings bound tablePrefix w' < rank settings bound tablePrefix w ∨
      rank settings bound tablePrefix w' = rank settings bound tablePrefix w ∧
        questionsLeft settings tablePrefix w' < questionsLeft settings tablePrefix w)

theorem weighted_lt {time time' limit rank rank' questions questions' : Nat} (hrank : rank' < limit)
    (hquestions : questions' < 2 ^ 32)
    (h : time' < time ∨ time' = time ∧ (rank' < rank ∨ rank' = rank ∧ questions' < questions)) :
    (time' * limit + rank') * 2 ^ 32 + questions' < (time * limit + rank) * 2 ^ 32 + questions := by
  have hless : time' * limit + rank' < time * limit + rank ∨
      time' * limit + rank' = time * limit + rank ∧ questions' < questions := by
    obtain htime | ⟨rfl, hrest⟩ := h
    · have hmul := Nat.mul_le_mul_right limit htime
      rw [Nat.succ_mul] at hmul
      exact .inl (Nat.lt_of_lt_of_le (Nat.add_lt_add_left hrank _) (Nat.le_add_right_of_le hmul))
    · exact hrest.imp (Nat.add_lt_add_left · _) fun hsame => ⟨by rw [hsame.1], hsame.2⟩
  omega

/-- **What has been done is not to be done again.** -/
theorem effort_lt (h : w.Advances settings bound tablePrefix w') (htime : w.elapsed < deadline)
    (hkeys : w'.bucket.store.keys.length ≤ bound)
    (hends : settings.jobPoll ≤ settings.jobWait ∨ ∀ script, w'.Follows script → script.Ends) :
    effort settings bound tablePrefix deadline w' < effort settings bound tablePrefix deadline w := by
  refine weighted_lt (Store.rank_lt hkeys) (questionsLeft_lt hends) ?_
  obtain hlater | ⟨hsame, hrest⟩ := h
  · exact .inl (Nat.sub_lt_sub_left htime hlater)
  · exact .inr ⟨by rw [hsame], hrest⟩

/-- All there is to do in some time. -/
theorem effort_lt_of_le {span : Duration} (hspan : deadline - w.elapsed ≤ span)
    (hkeys : w.bucket.store.keys.length ≤ bound)
    (hends : settings.jobPoll ≤ settings.jobWait ∨ ∀ script, w.Follows script → script.Ends) :
    effort settings bound tablePrefix deadline w < (span + 1) * Store.rankLimit bound * 2 ^ 32 := by
  have hless : effort settings bound tablePrefix deadline w <
      ((span + 1) * Store.rankLimit bound + 0) * 2 ^ 32 + 0 :=
    weighted_lt (Store.rank_lt hkeys) (questionsLeft_lt hends) (.inl (Nat.lt_succ_of_le hspan))
  rwa [Nat.add_zero, Nat.add_zero] at hless

end World
end Intake
