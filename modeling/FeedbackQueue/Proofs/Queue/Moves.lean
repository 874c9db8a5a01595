import FeedbackQueue.Proofs.Queue.Spelling

/-!
# What moves do to places, homes and ticks

For most purposes a queue matters only through the *place* of each slot (`Queues.location`), its
home level, and the ticks of each lane.  Here is what every move does to the three.

* `Queues.location_relink`, `Queues.location_remove`, `Queues.location_swap`;
* `Queues.home_relink` and its likes — no move but `reset` touches a home level;
* `Queues.quantum_relink` and its likes — no move of a slot touches ticks;
* `Queues.Spells.drain_eq` — a drain moves the members of the queue at its start, one after another,
  even though it walks the very links that it changes.
-/

namespace FeedbackQueue.Queues

variable {levels nproc : Nat}

/-! ## Homes -/

section Homes

variable (q : Queues levels nproc) (slot y : Fin nproc) (level : Nat) (set : QueueSet)

theorem home_adjustLink {f : Link nproc → Link nproc} (hf : ∀ l, (f l).home = l.home) :
    ((q.adjustLink slot f).link y).home = (q.link y).home := by
  rw [link_adjustLink]
  split
  · exact hf _
  · rfl

@[simp] theorem home_append : ((q.append slot level set).link y).home = (q.link y).home := by
  unfold append
  cases (q.lane? level set).bind Lane.tail <;> simp [home_adjustLink]

@[simp] theorem home_remove : ((q.remove slot).link y).home = (q.link y).home := by
  by_cases h : (q.link slot).level? = none
  · rw [remove_of_not_linked q slot h]
  · rw [link_remove q slot y h]
    split <;> rfl

@[simp] theorem home_relink : ((q.relink slot level set).link y).home = (q.link y).home := by
  simp [relink]

@[simp] theorem home_swap (isLive : Fin nproc → Bool) :
    ((q.swap isLive).link slot).home = (q.link slot).home := by
  rw [link_swap]
  split <;> rfl

end Homes

/-! ## Ticks -/

section Ticks

variable (q : Queues levels nproc) (slot : Fin nproc) (level l : Nat) (set t : QueueSet)

theorem quantum_eq_of_lane? (lane : Lane nproc) (h : q.lane? level set = some lane) :
    q.quantum level set = .ok lane.quantum := by
  simp [quantum, Queues.lane, h, Except.map]

theorem quantum_congr {q q' : Queues levels nproc}
    (h : (q'.lane? level set).map Lane.quantum = (q.lane? level set).map Lane.quantum) :
    q'.quantum level set = q.quantum level set := by
  unfold quantum Queues.lane
  cases hq : q.lane? level set <;> cases hq' : q'.lane? level set <;> simp_all [Except.map]

theorem ticks_append : ((q.append slot level set).lane? l t).map Lane.quantum
    = (q.lane? l t).map Lane.quantum := by
  rw [lane?_append]
  split <;> simp [Function.comp_def]

theorem ticks_remove : ((q.remove slot).lane? l t).map Lane.quantum
    = (q.lane? l t).map Lane.quantum := by
  cases hloc : q.location slot with
  | none =>
    rw [remove_of_not_linked q slot (by simpa [location, Link.location] using hloc)]
  | some place =>
    rw [lane?_remove q slot hloc]
    split <;> simp [Function.comp_def]

theorem ticks_relink : ((q.relink slot level set).lane? l t).map Lane.quantum
    = (q.lane? l t).map Lane.quantum := by
  rw [relink, ticks_append, ticks_remove]

@[simp] theorem quantum_remove : (q.remove slot).quantum l t = q.quantum l t :=
  quantum_congr _ _ (ticks_remove q slot l t)

@[simp] theorem quantum_relink : (q.relink slot level set).quantum l t = q.quantum l t :=
  quantum_congr _ _ (ticks_relink q slot level l set t)

theorem quantum_adjustLane (value : Int32) :
    (q.adjustLane level set fun lane => { lane with quantum := value }).quantum l t
      = if l = level ∧ t = set then (q.quantum l t).map fun _ => value else q.quantum l t := by
  unfold quantum Queues.lane
  rw [lane?_adjustLane]
  by_cases hl : l = level ∧ t = set
  · rw [if_pos hl, if_pos hl]
    cases q.lane? l t <;> rfl
  · rw [if_neg hl, if_neg hl]

theorem quantum_swap (isLive : Fin nproc → Bool) :
    (q.swap isLive).quantum level set = match set with
      | .active => (q.quantum level .expired).map fun _ => q.refill
      | .expired => q.quantum level .active := by
  unfold quantum Queues.lane
  rw [lane?_swap]
  cases set with
  | active => cases q.lane? level .expired <;> rfl
  | expired => rfl

end Ticks

/-! ## The ticks of a queue that becomes active -/

section Refill

variable (q : Queues levels nproc) (slot : Fin nproc) (level : Nat) (set : QueueSet)

@[simp] theorem refill_adjustLane (f : Lane nproc → Lane nproc) :
    (q.adjustLane level set f).refill = q.refill := by
  cases set <;> rfl

@[simp] theorem refill_adjustLink (f : Link nproc → Link nproc) :
    (q.adjustLink slot f).refill = q.refill := rfl

@[simp] theorem refill_append : (q.append slot level set).refill = q.refill := by
  unfold append
  cases (q.lane? level set).bind Lane.tail <;> simp

@[simp] theorem refill_remove : (q.remove slot).refill = q.refill := by
  simp only [remove]
  cases (q.link slot).location with
  | none => rfl
  | some place => cases (q.link slot).prev <;> cases (q.link slot).next <;> simp

@[simp] theorem refill_relink : (q.relink slot level set).refill = q.refill := by
  simp [relink]

end Refill

/-! ## Places -/

section Places

variable (q : Queues levels nproc) (slot y : Fin nproc)

theorem location_remove :
    (q.remove slot).location y = if y = slot then none else q.location y := by
  by_cases h : (q.link slot).level? = none
  · rw [remove_of_not_linked q slot h]
    split
    case isTrue heq => simp [heq, location, Link.location, h]
    case isFalse => rfl
  · unfold location
    rw [link_remove q slot y h]
    split <;> simp [Link.location, cut]

theorem location_append {level : Nat} {set : QueueSet}
    (h : (q.lane? level set).bind Lane.tail ≠ some slot) :
    (q.append slot level set).location y
      = if y = slot then some (level, set) else q.location y := by
  unfold location
  rw [link_append q slot y level set h]
  split
  · simp [Link.location, QueueSet.ofExpired_isExpired]
  · split <;> rfl

variable {q} in
/-- A slot that is moved is where it was moved to, and every other slot stays where it is. -/
theorem Spells.location_relink {s : Sequences nproc} (h : q.Spells s) {level : Nat}
    (hl : level < levels) (set : QueueSet) :
    (q.relink slot level set).location y
      = if y = slot then some (level, set) else q.location y := by
  have hfree : ((q.remove slot).lane? level set).bind Lane.tail ≠ some slot := by
    obtain ⟨lane, hlane, -, htail⟩ := (h.remove slot).lane_eq hl set
    rw [hlane, Option.bind_some, htail]
    exact fun heq => s.not_mem_remove slot level set (List.mem_of_getLast? heq)
  rw [Queues.relink, location_append _ _ _ hfree, location_remove]
  split <;> rfl

theorem location_swap (isLive : Fin nproc → Bool) :
    (q.swap isLive).location slot = (q.location slot).map (Prod.map id QueueSet.other) := by
  unfold location
  rw [link_swap]
  cases hlevel : (q.link slot).level? with
  | none =>
    simp only [Link.location, Link.isLinked, hlevel]
    split <;> simp [hlevel]
  | some level =>
    simp [Link.location, Link.isLinked, hlevel, QueueSet.ofExpired_not]

end Places

/-! ## Vacant queues, ticks and a fresh link -/

theorem spells_empty (levels nproc : Nat) (refill : Int32) :
    (empty levels nproc refill).Spells .empty where
  ends level hl set lane hlane := by
    cases set <;> simp [empty, lane?, lanes, hl] at hlane <;> subst hlane <;> exact ⟨rfl, rfl⟩
  chained _ _ _ := trivial
  nodup _ _ _ := List.nodup_nil
  disjoint _ _ _ _ _ _ _ h := absurd h List.not_mem_nil
  detached slot _ := by simp [empty, link, Link.detached]

theorem Spells.setTicks {q : Queues levels nproc} {s : Sequences nproc} (h : q.Spells s)
    (level : Nat) (set : QueueSet) (value : Int32) :
    (q.adjustLane level set fun lane => { lane with quantum := value }).Spells s where
  ends l hl t lane hlane := by
    obtain ⟨old, hold, hhead, htail⟩ := h.lane_eq hl t
    rw [lane?_adjustLane, hold] at hlane
    split at hlane <;> obtain rfl := Option.some.inj hlane <;> exact ⟨hhead, htail⟩
  chained l hl t := (h.chained l hl t).congr fun slot _ => link_adjustLane ..
  nodup := h.nodup
  disjoint := h.disjoint
  detached slot hslot := by
    rw [link_adjustLane]
    exact h.detached slot hslot

/-- The link of a slot in no queue may be replaced by a fresh one. -/
theorem Spells.detach {q : Queues levels nproc} {s : Sequences nproc} (h : q.Spells s)
    {slot : Fin nproc} (hfree : ∀ level < levels, ∀ set, slot ∉ s level set) (home : Nat) :
    (q.adjustLink slot fun _ => .detached home).Spells s where
  ends level hl set lane hlane := h.ends level hl set lane (lane?_adjustLink .. ▸ hlane)
  chained level hl set := (h.chained level hl set).congr fun y hy => by
    rw [link_adjustLink, if_neg]
    rintro rfl
    exact hfree level hl set hy
  nodup := h.nodup
  disjoint := h.disjoint
  detached y hy := by
    rw [link_adjustLink]
    split
    · exact ⟨rfl, rfl, rfl⟩
    · exact h.detached y hy

/-! ## Exchanging the sets -/

theorem Chained.swap {q : Queues levels nproc} {level : Nat} {set : QueueSet}
    {before after : Option (Fin nproc)} {slots : List (Fin nproc)} (isLive : Fin nproc → Bool)
    (h : q.Chained level set before slots after) :
    (q.swap isLive).Chained level set.other before slots after := by
  induction slots generalizing before with
  | nil => trivial
  | cons slot rest ih =>
    obtain ⟨⟨hlevel, hset, hprev, hnext⟩, hrest⟩ := h
    refine ⟨?_, ih hrest⟩
    rw [link_swap, if_pos (by simp [Link.isLinked, hlevel])]
    exact ⟨hlevel, by simp [hset], hprev, hnext⟩

theorem Spells.swap {q : Queues levels nproc} {s : Sequences nproc} (h : q.Spells s)
    (isLive : Fin nproc → Bool) : (q.swap isLive).Spells s.swap where
  ends level hl set lane hlane := by
    cases set with
    | active =>
      obtain ⟨old, hold, hhead, htail⟩ := h.lane_eq hl .expired
      rw [lane?_swap, hold] at hlane
      obtain rfl : _ = lane := Option.some.inj hlane
      exact ⟨hhead, htail⟩
    | expired =>
      rw [lane?_swap] at hlane
      exact h.ends level hl .active lane hlane
  chained level hl set := by
    have hc := (h.chained level hl set.other).swap isLive
    rwa [QueueSet.other_other] at hc
  nodup level hl set := h.nodup level hl set.other
  disjoint level hl level' hl' set set' slot hin hin' := by
    obtain ⟨hlevel, hset⟩ := h.disjoint level hl level' hl' _ _ slot hin hin'
    exact ⟨hlevel, by simpa using congrArg QueueSet.other hset⟩
  detached slot hslot := by
    have hout := h.detached slot fun level hl set => by
      simpa [Sequences.swap] using hslot level hl set.other
    rw [link_swap]
    split <;> exact hout

/-! ## Draining a queue -/

section Drain

variable {q : Queues levels nproc} {s : Sequences nproc} {source target : Nat} {set : QueueSet}
variable {slots : List (Fin nproc)}

@[simp] theorem home_relinkAll (y : Fin nproc) :
    ((q.relinkAll target set slots).link y).home = (q.link y).home := by
  induction slots generalizing q with
  | nil => rfl
  | cons slot rest ih => exact ih.trans (home_relink ..)

@[simp] theorem quantum_relinkAll (l : Nat) (t : QueueSet) :
    (q.relinkAll target set slots).quantum l t = q.quantum l t := by
  induction slots generalizing q with
  | nil => rfl
  | cons slot rest ih => exact ih.trans (quantum_relink ..)

@[simp] theorem refill_relinkAll : (q.relinkAll target set slots).refill = q.refill := by
  induction slots generalizing q with
  | nil => rfl
  | cons slot rest ih => exact ih.trans (refill_relink ..)

theorem destination_relink (slot y : Fin nproc) (level : Nat) (t : QueueSet) :
    (q.relink slot level t).destination target set y = q.destination target set y := by
  simp [destination]

variable (set) in
theorem destination_lt (ht : target < levels) (hh : ∀ slot, (q.link slot).home < levels)
    (slot : Fin nproc) : q.destination target set slot < levels := by
  unfold destination
  split
  · exact ht
  · exact hh slot

variable (set) in
theorem Spells.relinkAll (h : q.Spells s) (ht : target < levels)
    (hh : ∀ slot, (q.link slot).home < levels) (slots : List (Fin nproc)) :
    (q.relinkAll target set slots).Spells (s.relinkAll q.homes target set slots) := by
  induction slots generalizing q s with
  | nil => exact h
  | cons slot rest ih =>
    have hstep := h.relink slot (destination_lt set ht hh slot) set
    have hhomes : (q.relink slot (q.destination target set slot) set).homes = q.homes := by
      funext y
      exact home_relink ..
    have := ih hstep (by simpa using hh)
    rw [hhomes] at this
    exact this

theorem Spells.location_relinkAll (h : q.Spells s) (ht : target < levels)
    (hh : ∀ slot, (q.link slot).home < levels) (y : Fin nproc) :
    (q.relinkAll target set slots).location y
      = if y ∈ slots then some (q.destination target set y, set) else q.location y := by
  induction slots generalizing q s with
  | nil => simp [Queues.relinkAll]
  | cons slot rest ih =>
    have hd := destination_lt (q := q) set ht hh slot
    have hstep := ih (h.relink slot hd set) (by simpa using hh)
    rw [destination_relink, h.location_relink slot y hd set] at hstep
    refine hstep.trans ?_
    by_cases hrest : y ∈ rest
    · simp [hrest]
    · by_cases hy : y = slot
      · simp [hy]
      · simp [hrest, hy]

theorem follow_eq (ht : target < levels) (hh : ∀ slot, (q.link slot).home < levels)
    (slot : Fin nproc) :
    follow target set q slot = .ok (q.relink slot (q.destination target set slot) set) := by
  have hd := destination_lt (q := q) set ht hh slot
  cases set <;> simp_all [follow, destination]

/-- The walk of a drain, which has come to the slots `rest` of the queue.  The links of the slots
ahead are not changed by moving the ones behind. -/
theorem drainFrom_eq (ht : target < levels) (hne : set = .active → target ≠ source)
    (skip : Option Nat) {rest : List (Fin nproc)} {fuel : Nat} (hfuel : rest.length ≤ fuel)
    (moved : Nat) (h : q.Spells s) (hsource : source < levels)
    (hh : ∀ slot, (q.link slot).home < levels) (front : List (Fin nproc))
    (hq : s source .active = front ++ rest) :
    drainFrom target set skip fuel rest.head? moved q
      = .ok (moved + (rest.filter fun slot => skip != some slot.val).length,
          q.relinkAll target set (rest.filter fun slot => skip != some slot.val)) := by
  induction rest generalizing fuel moved front q s with
  | nil => cases fuel <;> simp [drainFrom, relinkAll]
  | cons slot rest ih =>
    obtain ⟨fuel, rfl⟩ : ∃ n, fuel = n + 1 := ⟨fuel - 1, by simp at hfuel; omega⟩
    have hfuel' : rest.length ≤ fuel := by simpa using hfuel
    have hnext : (q.link slot).next = rest.head? := by
      have hc := h.chained source hsource .active
      rw [hq, chained_append_iff] at hc
      simpa using hc.2.1.2.2.2
    simp only [List.head?_cons, drainFrom, hnext]
    by_cases hskip : skip = some slot.val
    · have hstep := ih hfuel' moved h hh (front ++ [slot]) (by simpa using hq)
      simpa [hskip] using hstep
    · -- the slot leaves the queue, and its rest is the rest of the queue without it
      have hd := destination_lt (q := q) set ht hh slot
      have hq' : (s.relink slot (q.destination target set slot) set) source .active
          = front ++ rest := by
        have hnodup : (front ++ slot :: rest).Nodup := hq ▸ h.nodup source hsource .active
        have hhere : ¬(source = q.destination target set slot ∧ .active = set) := by
          rintro ⟨hsrc, rfl⟩
          exact hne rfl (by simpa [destination] using hsrc.symm)
        rw [Sequences.relink, Sequences.append_of_ne _ hhere, Sequences.remove, hq,
          filter_ne_eq_append hnodup]
      have hstep := ih hfuel' (moved + 1) (h.relink slot hd set) (by simpa using hh) front hq'
      rw [if_neg hskip, follow_eq ht hh]
      simp only [hstep, Except.ok.injEq, Prod.mk.injEq]
      simp [hskip, relinkAll]
      omega

/-- A drain moves the members of the queue as it was at the start, one after another. -/
theorem Spells.drain_eq (h : q.Spells s) (hsource : source < levels) (ht : target < levels)
    (hne : set = .active → target ≠ source) (hh : ∀ slot, (q.link slot).home < levels)
    (skip : Option Nat) :
    q.drain source target set skip
      = .ok ((s.movers source skip).length, q.relinkAll target set (s.movers source skip)) := by
  obtain ⟨lane, hlane, hhead, -⟩ := h.lane_eq hsource .active
  have hwalk := drainFrom_eq ht hne skip (h.length_le hsource .active) 0 h hsource hh [] rfl
  rw [drain, if_neg (by omega), if_neg (by omega), if_neg (by simpa using hne), hlane,
    Option.bind_some, hhead, hwalk]
  simp [Sequences.movers]

end Drain

end FeedbackQueue.Queues
