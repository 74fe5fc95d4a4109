import Intake.Monitor
import Intake.Proofs.Scene
import Mathlib.Logic.Relation
/-!
# Pool — invocations that share a site

Any number of invocations take their calls in any order, one call at a time, and each writes down what it was replied.
Between any two calls of one of them the others may have acted.  A discipline says what they may do to each other: if
every invocation keeps to it as long as the others do, then all of them do, for ever (`Pool.Discipline.orderly`).
-/
namespace Intake

/-- A call that was made, the store it was made on, and the reply. -/
structure Deed where
  store : Store
  call : CloudCall
  reply : call.Reply

/-- One of several invocations. -/
structure Member (ι : Type) where
  errand : ι
  program : CloudProgram (Except Failure Unit)
  /-- The time of its last call. -/
  since : Duration
  log : List Deed

/-- Invocations that share a site and a clock. -/
structure Pool (ι : Type) where
  site : Site
  clock : Duration
  members : List (Member ι)

/-- What is taken for granted in a pool. -/
structure Rules (ι : Type) where
  /-- What an errand comes to. -/
  program : ι → CloudProgram (Except Failure Unit)
  allows : ι → Prop
  /-- The keys that others may write and delete. -/
  outside : String → Prop
  /-- The replies to a call at a time, if the call before it was made at another. -/
  replies : (c : CloudCall) → c.Reply → (clock since : Duration) → Prop

/-- The invocation, of whose result only matters whether it is a failure. -/
def Invocation.plain {α : Type} (x : Invocation α) : CloudProgram (Except Failure Unit) :=
  Program.bind x.run fun r => .done (r.map fun _ => ())

theorem Invocation.Keeps.plain {α σ : Type} {env : Surroundings Cloud σ} {good : α → σ → Prop} {x : Invocation α} {s : σ}
    (h : x.Keeps env good s) : x.plain.Keeps env (fun _ _ => True) s :=
  Program.Keeps.bind h fun _ _ _ => trivial

theorem Invocation.Keeps.plain_ok {α σ : Type} {env : Surroundings Cloud σ} {good : α → σ → Prop} {x : Invocation α} {s : σ}
    (h : x.Keeps env good s) : x.plain.Keeps env (fun r s => r = .ok () → ∃ a, good a s) s := by
  refine Program.Keeps.bind h fun r s hr e => ?_
  cases r with
  | ok a => exact ⟨a, hr a rfl⟩
  | error failure => cases e

namespace Pool

variable {ι : Type}

/-- **What happens next**: an errand comes up, a member makes its next call, time passes, or others write or delete
something. -/
inductive Step (rules : Rules ι) : Pool ι → Pool ι → Prop where
  | join {pool : Pool ι} {errand : ι} (h : rules.allows errand) :
    Step rules pool { pool with members := pool.members ++ [⟨errand, rules.program errand, pool.clock, []⟩] }
  | call {pool : Pool ι} {i : Nat} {member : Member ι} {c : CloudCall}
      {next : c.Reply → CloudProgram (Except Failure Unit)} {reply : c.Reply} {site : Site}
      (hmember : pool.members[i]? = some member) (hnext : member.program = Program.ask c next)
      (h : Site.Answers c pool.site reply site) (hreply : rules.replies c reply pool.clock member.since) :
    Step rules pool { pool with
      site := site
      members := pool.members.set i
        ⟨member.errand, next reply, pool.clock, member.log ++ [⟨pool.site.store, c, reply⟩]⟩ }
  | pass {pool : Pool ι} (span : Duration) : Step rules pool { pool with clock := pool.clock + span }
  | write {pool : Pool ι} {key : String} (body : Octets) (now : Timestamp) (h : rules.outside key) :
    Step rules pool { pool with site.store := pool.site.store.write key body now }
  | remove {pool : Pool ι} {key : String} (h : rules.outside key) :
    Step rules pool { pool with site.store := pool.site.store.remove key }

theorem Step.enter {rules : Rules ι} {errand : ι} (h : rules.allows errand) (site : Site) (clock : Duration)
    (members : List (Member ι)) : Step rules ⟨site, clock, members⟩
      ⟨site, clock, members ++ [⟨errand, rules.program errand, clock, []⟩]⟩ :=
  .join h

/-- Whoever is in the pool after one has joined was there before, or is the last. -/
theorem member_of_join {members : List (Member ι)} {last member : Member ι} {i : Nat}
    (h : (members ++ [last])[i]? = some member) : members[i]? = some member ∨ i = members.length ∧ member = last := by
  rw [List.getElem?_append] at h
  split at h
  · exact .inl h
  · rename_i hge
    obtain ⟨hi, e⟩ := List.getElem?_eq_some_iff.1 h
    rw [List.length_singleton] at hi
    rw [List.getElem_singleton] at e
    exact .inr ⟨by omega, e.symm⟩

/-- Whoever is in the pool after a call has made it, or is who was there before. -/
theorem member_of_call {members : List (Member ι)} {caller member : Member ι} {i j : Nat}
    (h : (members.set i caller)[j]? = some member) : i = j ∧ member = caller ∨ i ≠ j ∧ members[j]? = some member := by
  by_cases hij : i = j
  · subst hij
    rw [List.getElem?_set_self'] at h
    obtain ⟨_, -, e⟩ := Option.map_eq_some_iff.1 h
    exact .inl ⟨rfl, e.symm⟩
  · rw [List.getElem?_set_ne hij] at h
    exact .inr ⟨hij, h⟩

/-! ## Contracts -/

/-- **What the members of a pool rely on and see to.**  Besides the pool some ledger is kept, of which each member has a
view; its program keeps to surroundings of its own, and what the others do is no more than it is prepared for. -/
structure Contract (rules : Rules ι) (σ τ : Type) where
  /-- The ledger is one of the pool. -/
  about : σ → Pool ι → Prop
  /-- Only such pools are looked at. -/
  within : Pool ι → Prop
  view : σ → Member ι → τ
  env : Nat → ι → Surroundings Cloud τ
  post : Nat → ι → Except Failure Unit → τ → Prop
  /-- What a member finds when the others have acted. -/
  later : Nat → σ → σ → Prop
  back : ∀ {pool pool'}, Step rules pool pool' → within pool' → within pool
  lasts : ∀ {i s t} {member : Member ι}, later i s t →
    member.program.Keeps (env i member.errand) (post i member.errand) (view s member) →
    member.program.Keeps (env i member.errand) (post i member.errand) (view t member)
  join : ∀ {s} {pool : Pool ι} {errand}, about s pool → rules.allows errand →
    about s { pool with members := pool.members ++ [⟨errand, rules.program errand, pool.clock, []⟩] } ∧
      (rules.program errand).Keeps (env pool.members.length errand) (post pool.members.length errand)
        (view s ⟨errand, rules.program errand, pool.clock, []⟩)
  call : ∀ {s} {pool : Pool ι} {i} {member : Member ι} {c : CloudCall}
    {next : c.Reply → CloudProgram (Except Failure Unit)} {reply : c.Reply} {site : Site}
    {member' : Member ι} {pool' : Pool ι}, about s pool → pool.members[i]? = some member →
    (env i member.errand).admits c (view s member) → Site.Answers c pool.site reply site →
    rules.replies c reply pool.clock member.since →
    member' = ⟨member.errand, next reply, pool.clock, member.log ++ [⟨pool.site.store, c, reply⟩]⟩ →
    pool' = ⟨site, pool.clock, pool.members.set i member'⟩ → within pool' →
    ∃ s', about s' pool' ∧ (env i member.errand).answers c (view s member) reply (view s' member') ∧
      ∀ j ≠ i, later j s s'
  pass : ∀ {s pool} (span : Duration), about s pool →
    ∃ s', about s' { pool with clock := pool.clock + span } ∧ ∀ j, later j s s'
  write : ∀ {s pool key} (body now), about s pool → rules.outside key →
    ∃ s', about s' { pool with site.store := pool.site.store.write key body now } ∧ ∀ j, later j s s'
  remove : ∀ {s pool key}, about s pool → rules.outside key →
    ∃ s', about s' { pool with site.store := pool.site.store.remove key } ∧ ∀ j, later j s s'

/-- The ledger is one of the pool, and every member goes on as it should. -/
structure Holds {rules : Rules ι} {σ τ : Type} (k : Contract rules σ τ) (s : σ) (pool : Pool ι) : Prop where
  about : k.about s pool
  goesOn : ∀ (i : Nat) (member : Member ι), pool.members[i]? = some member →
    member.program.Keeps (k.env i member.errand) (k.post i member.errand) (k.view s member)

namespace Holds

variable {rules : Rules ι} {σ τ : Type} {k : Contract rules σ τ} {s : σ} {pool pool' : Pool ι}

/-- Something happened to the ledger, and no member has made a call. -/
theorem move (h : Holds k s pool) {s' : σ} (habout : k.about s' pool') (hlater : ∀ j, k.later j s s')
    (hmembers : pool'.members = pool.members) : Holds k s' pool' :=
  ⟨habout, fun i member hmember => k.lasts (hlater i) (h.goesOn i member (hmembers ▸ hmember))⟩

theorem join (h : Holds k s pool) {errand : ι} (hallows : rules.allows errand) :
    Holds k s { pool with members := pool.members ++ [⟨errand, rules.program errand, pool.clock, []⟩] } := by
  obtain ⟨habout, hkeeps⟩ := k.join h.about hallows
  refine ⟨habout, fun i member hmember => ?_⟩
  obtain hmember | ⟨rfl, rfl⟩ := member_of_join hmember
  · exact h.goesOn i member hmember
  · exact hkeeps

/-- A member makes its next call. -/
theorem call (h : Holds k s pool) {i : Nat} {member : Member ι} {c : CloudCall}
    {next : c.Reply → CloudProgram (Except Failure Unit)} {reply : c.Reply} {site : Site} {member' : Member ι}
    (hmember : pool.members[i]? = some member) (hnext : member.program = Program.ask c next)
    (hanswers : Site.Answers c pool.site reply site) (hreply : rules.replies c reply pool.clock member.since)
    (hmember' : member' = ⟨member.errand, next reply, pool.clock, member.log ++ [⟨pool.site.store, c, reply⟩]⟩)
    (hwithin : k.within ⟨site, pool.clock, pool.members.set i member'⟩) :
    ∃ s', Holds k s' ⟨site, pool.clock, pool.members.set i member'⟩ := by
  have hgoes := h.goesOn i member hmember
  rw [hnext] at hgoes
  obtain ⟨s', habout, hview, hlater⟩ := k.call h.about hmember hgoes.1 hanswers hreply hmember' rfl hwithin
  refine ⟨s', habout, fun j other hother => ?_⟩
  obtain ⟨rfl, rfl⟩ | ⟨hij, hother⟩ := member_of_call hother
  · rw [hmember'] at hview ⊢
    exact hgoes.2 reply _ hview
  · exact k.lasts (hlater j (Ne.symm hij)) (h.goesOn j other hother)

theorem step (h : Holds k s pool) (hstep : Step rules pool pool') (hwithin : k.within pool') :
    ∃ s', Holds k s' pool' := by
  cases hstep with
  | join hallows => exact ⟨s, h.join hallows⟩
  | call hmember hnext hanswers hreply => exact h.call hmember hnext hanswers hreply rfl hwithin
  | pass span =>
    obtain ⟨s', habout, hlater⟩ := k.pass span h.about
    exact ⟨s', h.move habout hlater rfl⟩
  | write body now hkey =>
    obtain ⟨s', habout, hlater⟩ := k.write body now h.about hkey
    exact ⟨s', h.move habout hlater rfl⟩
  | remove hkey =>
    obtain ⟨s', habout, hlater⟩ := k.remove h.about hkey
    exact ⟨s', h.move habout hlater rfl⟩

end Holds

/-- **If every member keeps to a contract as long as the others do, all of them do.** -/
theorem Contract.holds {rules : Rules ι} {σ τ : Type} (k : Contract rules σ τ) {s : σ} {pool pool' : Pool ι}
    (habout : k.about s pool) (hmembers : pool.members = [])
    (hsteps : Relation.ReflTransGen (Step rules) pool pool') (hwithin : k.within pool') : ∃ s', Holds k s' pool' := by
  induction hsteps with
  | refl => exact ⟨s, habout, by simp [hmembers]⟩
  | tail _ hstep ih =>
    obtain ⟨s', h⟩ := ih (k.back hstep hwithin)
    exact h.step hstep hwithin

/-! ## Disciplines -/

/-- Where an invocation stands: the site as it is, and the calls it has made. -/
structure Stand where
  site : Site
  log : List Deed

namespace Stand

/-- What may come of a call, which is written down. -/
structure Answers (c : CloudCall) (s : Stand) (reply : c.Reply) (s' : Stand) : Prop where
  site : Site.Answers c s.site reply s'.site
  log : s'.log = s.log ++ [⟨s.site.store, c, reply⟩]

/-- **The surroundings of one invocation among others**: before each of its calls the others may have acted. -/
def among (later : Site → Site → Prop) (sound : Site → Prop) (ok : CloudCall → Stand → Prop) : Surroundings Cloud Stand where
  admits c s := ∀ site, later s.site site → sound site → ok c ⟨site, s.log⟩
  answers c s reply s' := ∃ site, later s.site site ∧ sound site ∧ Answers c ⟨site, s.log⟩ reply s'

variable {later : Site → Site → Prop} {sound : Site → Prop} {ok : CloudCall → Stand → Prop} {α : Type} {s : Stand}

/-- A kind of calls that a program keeps to among others it also keeps to if nobody disturbs it. -/
theorem undisturbed {kind : CloudCall → Prop} {post : α → Stand → Prop} : ∀ {p : CloudProgram α} {s : Stand},
    p.Keeps (among (fun _ _ => True) (fun _ => True) fun c _ => kind c) post s →
      p.Keeps (Site.undisturbed fun c _ => kind c) (fun _ _ => True) s.site
  | Program.done _, _, _ => trivial
  | Program.ask _ _, s, h => ⟨h.1 s.site trivial trivial, fun reply mid hanswers =>
      undisturbed (h.2 reply ⟨mid, s.log ++ [⟨s.site.store, _, reply⟩]⟩ ⟨s.site, trivial, trivial, hanswers, rfl⟩)⟩
  | Program.halt _, _, _ => trivial

theorem keeps_only {kind : CloudCall → Prop} {x : Invocation α} (hx : x.Only kind) (hok : ∀ c t, kind c → ok c t) :
    x.Keeps (among later sound ok) (fun _ _ => True) s :=
  hx.keeps (fun c _ hc _ _ _ _ => hok c _ hc) (fun _ _ _ _ _ _ _ => trivial) trivial

/-- Waiting adds to the calls that were made. -/
theorem keeps_waiting {x : Invocation α} (hx : x.Only CloudCall.IsWaiting) (hok : ∀ c t, c.IsWaiting → ok c t) :
    x.Keeps (among later sound ok)
      (fun _ t => ∃ waited, t.log = s.log ++ waited ∧ ∀ deed ∈ waited, deed.call.IsWaiting) s := by
  refine hx.keeps (fun c _ hc _ _ _ _ => hok c _ hc) (fun c t reply t' hc ht hr => ?_) ⟨[], by simp, by simp⟩
  obtain ⟨waited, hlog, hwaited⟩ := ht
  obtain ⟨site, -, -, hanswers⟩ := hr
  refine ⟨waited ++ [⟨site.store, c, reply⟩], by rw [hanswers.log, hlog, List.append_assoc], fun deed hdeed => ?_⟩
  rcases List.mem_append.1 hdeed with hdeed | hdeed
  · exact hwaited deed hdeed
  · rw [List.mem_singleton.1 hdeed]
    exact hc

/-- What is said of an object is said of the one that was asked for. -/
theorem keeps_head {key : String} (hok : ∀ t, ok (.head key) t) : (Invocation.head key).Keeps (among later sound ok)
    (fun found _ => ∀ object, found = some object → object.key = key) s := by
  refine Invocation.keeps_store ⟨fun _ _ _ => hok _, fun reply t hr found e => ?_⟩
  rintro object rfl
  obtain ⟨site, -, -, hanswers⟩ := hr
  exact hanswers.site.key_of_head e

/-- A backfill marker that is seen may be claimed, where claims on it are admitted. -/
theorem keeps_trigger {tablePrefix : String} (hok : ∀ c t, c.IsFree tablePrefix → ok c t) :
    (Invocation.head (BackfillMarker.keyOf tablePrefix)).Keeps (among later sound ok)
      (fun found t => ∀ object, found = some object →
        (Claim.takeObject object).Keeps (among later sound ok) (fun _ _ => True) t) s :=
  (keeps_head fun _ => hok _ _ trivial).mono fun _ _ h object e =>
    keeps_only (Claim.free_takeObject (h object e)) hok

/-- The first pointer of the backlog, in the store as it was listed. -/
theorem keeps_next {tablePrefix : String} (hok : ∀ t, ok (.list (Backlog.folder tablePrefix) none) t) :
    (Backlog.next tablePrefix).Keeps (among later sound ok) (fun q t => ∃ site, later s.site site ∧ t.site = site ∧
      q = (site.store.pointers tablePrefix).head? ∧
      t.log = s.log ++ [⟨site.store, .list (Backlog.folder tablePrefix) none,
        .ok (site.store.list (Backlog.folder tablePrefix) none)⟩]) s := by
  have hlist : (Invocation.list (Backlog.folder tablePrefix) none).Keeps (among later sound ok)
      (fun listing t => ∃ site, later s.site site ∧ t.site = site ∧
        listing = site.store.list (Backlog.folder tablePrefix) none ∧
        t.log = s.log ++ [⟨site.store, .list (Backlog.folder tablePrefix) none, .ok listing⟩]) s := by
    refine Invocation.keeps_store ⟨fun site _ _ => hok _, fun reply t hr listing e => ?_⟩
    obtain ⟨site, hlater, -, ⟨hsite, hreply | ⟨fault, e', -⟩⟩, hlog⟩ := hr
    · rw [e] at hreply hlog
      exact ⟨site, hlater, hsite, (Except.ok.inj (Option.some.inj hreply)).symm, hlog⟩
    · rw [e] at e'
      cases e'
  refine hlist.bind fun listing t h => Invocation.keeps_pure ?_
  obtain ⟨site, hlater, hsite, rfl, hlog⟩ := h
  exact ⟨site, hlater, hsite, by rw [Store.pointers_eq_list, List.head?_map], hlog⟩

end Stand

/-- **What the members of a pool may do to each other.** -/
structure Discipline (rules : Rules ι) where
  /-- What others may have made of a site. -/
  later : Site → Site → Prop
  /-- The calls that a member may make for its errand. -/
  ok : ι → CloudCall → Stand → Prop
  /-- What is true of the site all the time. -/
  sound : Site → Prop
  refl : ∀ site, later site site
  trans : ∀ {s t u}, later s t → later t u → later s u
  lasts : ∀ {s t}, later s t → sound s → sound t
  call : ∀ {errand c s reply s'}, sound s.site → ok errand c s → Stand.Answers c s reply s' → later s.site s'.site
  write : ∀ {site : Site} {key} (body now), rules.outside key → sound site →
    later site { site with store := site.store.write key body now }
  remove : ∀ {site : Site} {key}, rules.outside key → sound site →
    later site { site with store := site.store.remove key }
  keeps : ∀ {errand site}, rules.allows errand →
    (rules.program errand).Keeps (Stand.among later sound (ok errand)) (fun _ _ => True) ⟨site, []⟩

variable {rules : Rules ι} {pool pool' : Pool ι}

namespace Discipline

/-- **What calls are made for each errand**, where nothing is said of what others do. -/
def ofCalls (ok : ι → CloudCall → Stand → Prop) (keeps : ∀ {errand site}, rules.allows errand →
    (rules.program errand).Keeps (Stand.among (fun _ _ => True) (fun _ => True) (ok errand)) (fun _ _ => True) ⟨site, []⟩) :
    Discipline rules where
  later _ _ := True
  ok := ok
  sound _ := True
  refl _ := trivial
  trans _ _ := trivial
  lasts _ _ := trivial
  call _ _ _ := trivial
  write _ _ _ _ := trivial
  remove _ _ := trivial
  keeps := keeps

variable (d : Discipline rules)

/-- Every call that was made was one that the member might make. -/
def WentOn (pool : Pool ι) : Prop :=
  ∀ member ∈ pool.members, ∀ before deed after, member.log = before ++ deed :: after →
    ∃ site : Site, site.store = deed.store ∧ d.ok member.errand deed.call ⟨site, before⟩

/-- A discipline is a contract about the site. -/
def contract : Contract rules Site Stand where
  about site pool := site = pool.site ∧ d.sound site ∧ d.WentOn pool
  within _ := True
  view site member := ⟨site, member.log⟩
  env _ errand := Stand.among d.later d.sound (d.ok errand)
  post _ _ _ _ := True
  later _ := d.later
  back _ _ := trivial
  lasts {i s t member} hlater h := by
    cases hprogram : member.program with
    | done r => trivial
    | halt => trivial
    | ask c next =>
      rw [hprogram] at h
      refine ⟨fun u hu => h.1 u (d.trans hlater hu), fun reply s' hs => ?_⟩
      obtain ⟨u, hu, hsound, hanswers⟩ := hs
      exact h.2 reply s' ⟨u, d.trans hlater hu, hsound, hanswers⟩
  join {s pool errand} h hallows := by
    refine ⟨⟨h.1, h.2.1, fun member hmember => ?_⟩, d.keeps hallows⟩
    rcases List.mem_append.1 hmember with hmember | hmember
    · exact h.2.2 member hmember
    · rw [List.mem_singleton.1 hmember]
      exact fun before deed after hlog => absurd hlog.symm (List.append_ne_nil_of_right_ne_nil _ nofun)
  call {s pool i member c next reply site member' pool'} h hmember hadmits hanswers _ hmember' hpool' _ := by
    obtain ⟨rfl, hsound, hwent⟩ := h
    have hok := hadmits pool.site (d.refl _) hsound
    have hstand : Stand.Answers c ⟨pool.site, member.log⟩ reply ⟨site, member'.log⟩ := by
      rw [hmember']
      exact ⟨hanswers, rfl⟩
    have hlater : d.later pool.site site := d.call hsound hok hstand
    subst hpool'
    refine ⟨site, ⟨rfl, d.lasts hlater hsound, fun other hother => ?_⟩, ⟨pool.site, d.refl _, hsound, hstand⟩,
      fun _ _ => hlater⟩
    rcases List.mem_or_eq_of_mem_set hother with hother | rfl
    · exact hwent other hother
    · rw [hmember']
      intro before deed after hlog
      -- the deed is the one just done, or stands in the log as it was
      rcases List.eq_nil_or_concat after with rfl | ⟨after, last, rfl⟩
      · obtain ⟨rfl, hdeed⟩ := List.append_inj' hlog rfl
        obtain rfl := (List.cons.inj hdeed).1
        exact ⟨pool.site, rfl, hok⟩
      · rw [List.concat_eq_append, ← List.cons_append, ← List.append_assoc] at hlog
        exact hwent member (List.mem_of_getElem? hmember) before deed after (List.append_inj' hlog rfl).1
  pass {s pool} _ h := ⟨s, h, fun _ => d.refl _⟩
  write body now h hkey := by
    obtain ⟨rfl, hsound, hwent⟩ := h
    have hlater := d.write body now hkey hsound
    exact ⟨_, ⟨rfl, d.lasts hlater hsound, hwent⟩, fun _ => hlater⟩
  remove h hkey := by
    obtain ⟨rfl, hsound, hwent⟩ := h
    have hlater := d.remove hkey hsound
    exact ⟨_, ⟨rfl, d.lasts hlater hsound, hwent⟩, fun _ => hlater⟩

end Discipline

/-- The members of the pool keep to a discipline, and have done so with every call they made. -/
structure Orderly (d : Discipline rules) (pool : Pool ι) : Prop where
  sound : d.sound pool.site
  goesOn : ∀ member ∈ pool.members,
    member.program.Keeps (Stand.among d.later d.sound (d.ok member.errand)) (fun _ _ => True) ⟨pool.site, member.log⟩
  wentOn : d.WentOn pool

/-- The call that a member is about to make is one it may make. -/
theorem Orderly.ok_next {d : Discipline rules} (h : pool.Orderly d) {member : Member ι} (hmember : member ∈ pool.members)
    {c : CloudCall} {next : c.Reply → CloudProgram (Except Failure Unit)} (hnext : member.program = Program.ask c next) :
    d.ok member.errand c ⟨pool.site, member.log⟩ := by
  have hgoes := h.goesOn member hmember
  rw [hnext] at hgoes
  exact hgoes.1 pool.site (d.refl _) h.sound

/-- **If every member keeps to a discipline as long as the others do, all of them do.** -/
theorem Discipline.orderly (d : Discipline rules) (hsound : d.sound pool.site) (hmembers : pool.members = [])
    (hsteps : Relation.ReflTransGen (Step rules) pool pool') : pool'.Orderly d := by
  have hwent : d.WentOn pool := by simp [WentOn, hmembers]
  obtain ⟨_, ⟨rfl, hsound', hwent'⟩, hgoes⟩ := d.contract.holds ⟨rfl, hsound, hwent⟩ hmembers hsteps trivial
  refine ⟨hsound', fun member hmember => ?_, hwent'⟩
  obtain ⟨i, hi⟩ := List.mem_iff_getElem?.1 hmember
  exact hgoes i member hi

/-- Step after step, through pools of a kind. -/
def Run (rules : Rules ι) (within : Pool ι → Prop) : Pool ι → Pool ι → Prop :=
  Relation.ReflTransGen fun pool pool' => Step rules pool pool' ∧ within pool'

theorem Run.steps {within : Pool ι → Prop} (h : Run rules within pool pool') :
    Relation.ReflTransGen (Step rules) pool pool' := by
  induction h with
  | refl => exact .refl
  | tail _ hstep ih => exact ih.tail hstep.1

/-- **What every step of members that keep to a discipline leaves true, a whole run leaves true.** -/
theorem Discipline.run {d : Discipline rules} {within : Pool ι → Prop} (inv : Pool ι → Prop)
    (hsound : d.sound pool.site) (hmembers : pool.members = [])
    (hkept : ∀ {pool pool'}, pool.Orderly d → Step rules pool pool' → within pool' → inv pool → inv pool')
    (h : Run rules within pool pool') (hstart : inv pool) : inv pool' := by
  induction h with
  | refl => exact hstart
  | tail hrun hstep ih => exact hkept (d.orderly hsound hmembers (Run.steps hrun)) hstep.1 hstep.2 ih

/-! ## Errands of a table -/

/-- What is done for a table. -/
inductive Errand where
  | subscribe (ctx : Context)
  /-- A marker is put into the backlog, and then the monitor looks. -/
  | enqueue (ctx : Context) (marker : String)
  | monitor (ctx : Context)

def Errand.program (tablePrefix : String) : Errand → CloudProgram (Except Failure Unit)
  | .subscribe ctx => (Subscriber.run ctx tablePrefix).plain
  | .enqueue ctx marker =>
    (do Monitor.ensureSubscriber ctx (← Intake.enqueue ctx marker).tablePrefix : Invocation MonitorOutcome).plain
  | .monitor ctx => (Monitor.ensureSubscriber ctx tablePrefix).plain

/-- **Any errands of a table**, under one prefix of job names; others write and delete what they like, and every reply that
the site allows may be given. -/
def lenient (jobPrefix tablePrefix : String) : Rules Errand where
  program := Errand.program tablePrefix
  allows
    | .subscribe ctx => ctx.settings.jobPrefix = jobPrefix
    | .enqueue ctx marker => ctx.layout.tablePrefix marker = .ok tablePrefix
    | .monitor _ => True
  outside _ := True
  replies _ _ _ _ := True

end Pool
end Intake
