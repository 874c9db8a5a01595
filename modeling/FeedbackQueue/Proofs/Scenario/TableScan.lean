import FeedbackQueue.Proofs.Scenario.Steps

/-!
# The table scan passes nobody over

Under the table scan every CPU goes round the table on its own, from where its last pick has left
its cursor.  Before it takes a slot again it has come past every other slot, and has taken those
that it found runnable.

* `Kernel.gap` — how far a slot lies ahead of a cursor; a scan takes the runnable slot with the
  least gap (`Kernel.gap_le_of_find?`);
* `Sweeps` — picks one after another, each from where the one before it has left the cursor;
* `Path.sweeps` — the picks of a CPU in a run are such picks, whatever other CPUs do in between;
* `Path.scan_passes_nobody` — between two picks of a slot every slot that stays runnable is picked.
-/

namespace FeedbackQueue

open Kernel

variable {cfg : Config}

/-! ## Round the table -/

namespace Kernel

variable {s : Scheduler cfg} {cursor : Nat} {x y z : Fin cfg.maxProcs}

/-- How many slots a scan looks at before it comes to a slot. -/
def gap (cursor : Nat) (slot : Fin cfg.maxProcs) : Nat :=
  if cursor ≤ slot.val then slot.val - cursor else slot.val + cfg.maxProcs - cursor

/-- Where the next scan starts. -/
def cursorPast (cursor : Nat) : Option (Fin cfg.maxProcs) → Nat
  | none => cursor
  | some slot => (slot.val + 1) % cfg.maxProcs

theorem cursorPast_lt (hcursor : cursor < cfg.maxProcs) (found : Option (Fin cfg.maxProcs)) :
    cursorPast cursor found < cfg.maxProcs := by
  cases found with
  | none => exact hcursor
  | some slot => exact Nat.mod_lt _ (Nat.zero_lt_of_lt hcursor)

theorem gap_lt (hcursor : cursor < cfg.maxProcs) (slot : Fin cfg.maxProcs) :
    gap cursor slot < cfg.maxProcs := by
  have hslot := slot.isLt
  unfold gap
  split <;> omega

theorem slotFrom_gap (hpos : 0 < cfg.maxProcs) (hcursor : cursor < cfg.maxProcs)
    (slot : Fin cfg.maxProcs) : slotFrom hpos cursor (gap cursor slot) = slot := by
  have hslot := slot.isLt
  apply Fin.ext
  show (cursor + gap cursor slot) % cfg.maxProcs = slot.val
  unfold gap
  split
  case isTrue h => rw [Nat.add_sub_cancel' h, Nat.mod_eq_of_lt hslot]
  case isFalse h =>
    have hround : cursor + (slot.val + cfg.maxProcs - cursor) = slot.val + cfg.maxProcs := by omega
    rw [hround, Nat.add_mod_right, Nat.mod_eq_of_lt hslot]

theorem gap_slotFrom (hpos : 0 < cfg.maxProcs) (hcursor : cursor < cfg.maxProcs) {offset : Nat}
    (hoffset : offset < cfg.maxProcs) : gap cursor (slotFrom hpos cursor offset) = offset := by
  show (if cursor ≤ (cursor + offset) % cfg.maxProcs then _ else _) = offset
  rcases Nat.lt_or_ge (cursor + offset) cfg.maxProcs with hbefore | hround
  · simp only [slotFrom, Nat.mod_eq_of_lt hbefore]
    split <;> omega
  · have hmod : (cursor + offset) % cfg.maxProcs = cursor + offset - cfg.maxProcs := by
      rw [Nat.mod_eq_sub_mod hround, Nat.mod_eq_of_lt (by omega)]
    simp only [slotFrom, hmod]
    split <;> omega

theorem gap_ne (hcursor : cursor < cfg.maxProcs) (hne : y ≠ x) : gap cursor y ≠ gap cursor x := by
  have hpos := Nat.zero_lt_of_lt hcursor
  intro hgap
  exact hne (by rw [← slotFrom_gap hpos hcursor y, hgap, slotFrom_gap hpos hcursor x])

/-- A scan takes the runnable slot that it comes to first. -/
theorem gap_le_of_find? (hpos : 0 < cfg.maxProcs) (hcursor : cursor < cfg.maxProcs)
    (hfound : (scanned hpos cursor).find? (schedulable s) = some x)
    (hrunnable : (s.table.record y).state = .runnable) : gap cursor x ≤ gap cursor y := by
  rw [scanned, List.find?_map, Option.map_eq_some_iff] at hfound
  obtain ⟨offset, hfirst, rfl⟩ := hfound
  obtain ⟨-, hmem, hbefore⟩ := List.find?_range_eq_some.mp hfirst
  rw [gap_slotFrom hpos hcursor (List.mem_range.mp hmem)]
  apply Nat.le_of_not_lt
  intro hearlier
  have hpassed := hbefore _ hearlier
  simp [Function.comp, slotFrom_gap hpos hcursor, schedulable_iff.mpr hrunnable] at hpassed

/-- A pick brings the cursor nearer to the slots that it has not come to. -/
theorem gap_cursorPast (hcursor : cursor < cfg.maxProcs) (hahead : gap cursor z < gap cursor y) :
    gap (cursorPast cursor (some z)) y + gap cursor z + 1 = gap cursor y := by
  have hy := y.isLt
  have hz := z.isLt
  show gap ((z.val + 1) % cfg.maxProcs) y + gap cursor z + 1 = gap cursor y
  rcases Nat.lt_or_ge (z.val + 1) cfg.maxProcs with hlt | hlast
  · rw [Nat.mod_eq_of_lt hlt]
    unfold gap at hahead ⊢
    split_ifs at hahead ⊢ <;> omega
  · have hround : z.val + 1 = cfg.maxProcs := by omega
    rw [hround, Nat.mod_self]
    unfold gap at hahead ⊢
    split_ifs at hahead ⊢ <;> omega

/-- Just after it has been picked, no slot lies farther ahead. -/
theorem gap_cursorPast_lt (hcursor : cursor < cfg.maxProcs) (hne : y ≠ x) :
    gap (cursorPast cursor (some x)) y < gap (cursorPast cursor (some x)) x := by
  have hx := x.isLt
  have hpast := cursorPast_lt hcursor (some x)
  have hlast : gap (cursorPast cursor (some x)) x = cfg.maxProcs - 1 := by
    show gap ((x.val + 1) % cfg.maxProcs) x = cfg.maxProcs - 1
    rcases Nat.lt_or_ge (x.val + 1) cfg.maxProcs with hlt | hge
    · rw [Nat.mod_eq_of_lt hlt]
      unfold gap
      split <;> omega
    · have hround : x.val + 1 = cfg.maxProcs := by omega
      rw [hround, Nat.mod_self]
      unfold gap
      split <;> omega
  have hlt := gap_lt hpast y
  have hother := gap_ne hpast hne
  omega

end Kernel

/-! ## Picks in a row -/

/-- The answer of an operation, unless it faults. -/
def Kernel.answer? {α : Type} (x : Kernel cfg α) (m : Machine cfg) : Option α :=
  match x m with
  | .ok a _ => some a
  | .error .. => none

namespace Moment

/-- What a CPU finds in a step in which it picks. -/
def pickOf? (m : Moment cfg) (cpu : Nat) : Step → Option (Option (Fin cfg.maxProcs))
  | .act (.pick c) => if c = cpu then answer? (pickAndDrop cpu) m.machine else none
  | .begin c => if c = cpu then answer? (beginTurn cpu) m.machine else none
  | _ => none

/-- The picks of a CPU in steps that are taken one after another: when it picks, and what it finds.
A pick that finds nothing is one of them. -/
def picksOf (m : Moment cfg) (cpu : Nat) (steps : List Step) :
    List (Moment cfg × Option (Fin cfg.maxProcs)) :=
  m.observe (fun m step => (m.pickOf? cpu step).toList.map (m, ·)) steps

end Moment

/-- Picks in a row, each a scan from where the one before it has left the cursor. -/
inductive Sweeps (hpos : 0 < cfg.maxProcs) :
    Nat → List (Moment cfg × Option (Fin cfg.maxProcs)) → Nat → Prop
  | nil (cursor : Nat) : Sweeps hpos cursor [] cursor
  | cons {cursor last : Nat} {m : Moment cfg} {found : Option (Fin cfg.maxProcs)}
    {rest : List (Moment cfg × Option (Fin cfg.maxProcs))}
    (scan : found = (scanned hpos cursor).find? (schedulable m.machine.scheduler))
    (sweeps : Sweeps hpos (cursorPast cursor found) rest last) :
    Sweeps hpos cursor ((m, found) :: rest) last

namespace Sweeps

variable {hpos : 0 < cfg.maxProcs} {cursor last : Nat} {m : Moment cfg} {x y : Fin cfg.maxProcs}
variable {first second between after : List (Moment cfg × Option (Fin cfg.maxProcs))}

theorem append {middle : Nat} (hfirst : Sweeps hpos cursor first middle)
    (hsecond : Sweeps hpos middle second last) : Sweeps hpos cursor (first ++ second) last := by
  induction hfirst with
  | nil => exact hsecond
  | cons scan _ ih => exact .cons scan (ih hsecond)

/-- Picks in a row start from a place in the table wherever they are cut. -/
theorem of_append (h : Sweeps hpos cursor (first ++ second) last)
    (hcursor : cursor < cfg.maxProcs) :
    ∃ middle, middle < cfg.maxProcs ∧ Sweeps hpos middle second last := by
  induction first generalizing cursor with
  | nil => exact ⟨cursor, hcursor, h⟩
  | cons pick rest ih =>
    cases h with
    | cons _ sweeps => exact ih sweeps (cursorPast_lt hcursor _)

/-- A slot that lies ahead of another and stays runnable is picked before the other. -/
theorem exists_pick (h : Sweeps hpos cursor (between ++ (m, some x) :: after) last)
    (hcursor : cursor < cfg.maxProcs) (hahead : gap cursor y < gap cursor x)
    (hrunnable : ∀ pick ∈ between ++ [(m, some x)], pick.2.isSome = true →
      (pick.1.machine.scheduler.table.record y).state = .runnable) :
    ∃ pick ∈ between, pick.2 = some y := by
  induction between generalizing cursor with
  | nil =>
    cases h with
    | cons scan sweeps =>
      have hnearest := gap_le_of_find? hpos hcursor scan.symm
        (hrunnable _ List.mem_cons_self rfl)
      omega
  | cons pick rest ih =>
    cases h with
    | @cons _ _ m' found _ scan sweeps =>
      have hrest : ∀ pick ∈ rest ++ [(m, some x)], pick.2.isSome = true →
          (pick.1.machine.scheduler.table.record y).state = .runnable :=
        fun pick hmem => hrunnable pick (List.mem_cons_of_mem _ hmem)
      have hlater : ∀ {c}, Sweeps hpos c (rest ++ (m, some x) :: after) last → c < cfg.maxProcs →
          gap c y < gap c x → ∃ pick ∈ (m', found) :: rest, pick.2 = some y := by
        intro c hsweeps hc hgap
        obtain ⟨pick, hmem, hpick⟩ := ih hsweeps hc hgap hrest
        exact ⟨pick, List.mem_cons_of_mem _ hmem, hpick⟩
      cases found with
      | none => exact hlater sweeps hcursor hahead
      | some z =>
        by_cases hz : z = y
        · exact ⟨_, List.mem_cons_self, congrArg some hz⟩
        -- the slot found lies ahead of both, and the cursor comes nearer to both by as much
        · have hnearest := gap_le_of_find? hpos hcursor scan.symm
            (hrunnable _ List.mem_cons_self rfl)
          have hne := gap_ne hcursor hz
          have hy := gap_cursorPast hcursor (y := y) (z := z) (by omega)
          have hx := gap_cursorPast hcursor (y := x) (z := z) (by omega)
          exact hlater sweeps (cursorPast_lt hcursor _) (by omega)

end Sweeps

/-! ## The picks of a run -/

variable {s : Scheduler cfg} {cpu : Fin cfg.ncpu} {effects : List (Effect cfg)} {cursor : Nat}

namespace Effect

theorem cursor_apply {effect : Effect cfg} (h : ∀ cursor, effect ≠ .aim cpu cursor) :
    ((effect.apply s).cpu cpu).cursor = (s.cpu cpu).cursor := by
  cases effect with
  | dispatch c slot | stop c slot ending =>
    simp only [apply, Scheduler.cpu_set]
    split
    case isTrue hc => rw [hc]
    case isFalse => rfl
  | aim c cursor =>
    have hne : cpu ≠ c := by
      rintro rfl
      exact h cursor rfl
    simp [apply, Scheduler.cpu_set, hne]
  | _ => rfl

theorem cursor_applyAll (h : ∀ cursor, .aim cpu cursor ∉ effects) :
    ((applyAll s effects).cpu cpu).cursor = (s.cpu cpu).cursor := by
  refine applyAll_eq (fun t => (t.cpu cpu).cursor) fun effect hmem _ => cursor_apply ?_
  rintro cursor rfl
  exact h cursor hmem

end Effect

namespace Kernel

/-- Under the table scan a pick moves the cursor of its CPU past what it finds. -/
theorem Picks.cursor_eq {found : Option (Fin cfg.maxProcs)} (h : Picks s cpu found effects)
    (hp : cfg.effectivePolicy = .fifo) (hpos : 0 < cfg.maxProcs) :
    ((Effect.applyAll s effects).cpu cpu).cursor = cursorPast (s.cpu cpu).cursor found := by
  obtain ⟨-, rfl⟩ := h.scans hp hpos
  cases found with
  | none => rfl
  | some slot => simp [Effect.applyAll, Effect.apply, Scheduler.cpu_set, cursorPast]

theorem Picks.cpu_eq_of_mem_aim {c : Fin cfg.ncpu} {found : Option (Fin cfg.maxProcs)}
    (h : Picks s c found effects) (hmem : .aim cpu cursor ∈ effects) : cpu = c := by
  obtain rfl | ⟨isLive, rfl, -⟩ | ⟨cursor, rfl⟩ := h.effects_eq <;> simp_all

theorem Ends.not_aim {slot : Fin cfg.maxProcs} {ending : Ending} {c : Fin cfg.ncpu}
    (h : Ends s c slot ending effects) : .aim cpu cursor ∉ effects := by
  cases h with
  | @yield replenish requeued requeues =>
    have hrequeued : .aim cpu cursor ∉ requeued := by
      cases requeues with
      | scan policy => simp
      | roundRobin policy => simp
      | feedback policy place decision =>
        unfold cascadeEffects moveEffects
        split_ifs <;> simp
    cases replenish <;> simp [hrequeued]
  | sleep channel => simp
  | exit status => simp

theorem Wakes.not_aim {opened : List (Activity cfg)} (h : Wakes s opened effects) :
    .aim cpu cursor ∉ effects :=
  fun hmem => Bool.false_ne_true (h.waking _ hmem)

theorem Leaves.not_aim {activity : Activity cfg} {opened : List (Activity cfg)}
    (h : Leaves s activity opened effects) : .aim cpu cursor ∉ effects := by
  intro hmem
  obtain hwaking | ⟨slot, pid, heq, -⟩ := h.mem_cases hmem
  · cases hwaking
  · cases heq

end Kernel

namespace Kernel

theorem Begins.picks {found : Option (Fin cfg.maxProcs)} (h : Begins s cpu found effects) :
    ∃ before after, effects = before ++ after ∧ Picks s cpu found before ∧
      ∀ c cursor, .aim c cursor ∉ after := by
  cases h with
  | idle picks => exact ⟨_, _, rfl, picks, by simp⟩
  | dispatch picks report =>
    refine ⟨_, _, List.append_assoc .., picks, ?_⟩
    obtain rfl | ⟨window, rfl⟩ := report <;> simp

theorem Begins.cursor_eq {found : Option (Fin cfg.maxProcs)} (h : Begins s cpu found effects)
    (hp : cfg.effectivePolicy = .fifo) (hpos : 0 < cfg.maxProcs) :
    ((Effect.applyAll s effects).cpu cpu).cursor = cursorPast (s.cpu cpu).cursor found := by
  obtain ⟨before, after, rfl, picks, hafter⟩ := h.picks
  rw [Effect.applyAll_append, Effect.cursor_applyAll (hafter cpu), picks.cursor_eq hp hpos]

end Kernel

/-- A step moves the cursor of a CPU only when the CPU picks. -/
theorem Takes.picks_of_mem_aim {opened opened' : List (Activity cfg)} {step : Step}
    (h : Takes s opened step effects opened') (hmem : .aim cpu cursor ∈ effects) :
    step = .act (.pick cpu) ∨ step = .begin cpu := by
  cases h with
  | act performs =>
    cases performs with
    | pick picks =>
      obtain rfl := picks.cpu_eq_of_mem_aim hmem
      exact .inl rfl
    | tick charges => cases charges.isCharge _ hmem
    | _ => simp at hmem
  | begin begins =>
    obtain ⟨before, after, rfl, picks, hafter⟩ := begins.picks
    have hbefore := (List.mem_append.mp hmem).resolve_right (hafter cpu cursor)
    obtain rfl := picks.cpu_eq_of_mem_aim hbefore
    exact .inr rfl
  | finish ends here => exact absurd hmem ends.not_aim
  | wakeup wakes => exact absurd hmem wakes.not_aim
  | kill wakes => exact absurd hmem wakes.not_aim
  | resume here isWindow leaves => exact absurd hmem leaves.not_aim

namespace Moment

variable {m m' : Moment cfg} {step : Step}

theorem take_of_next (h : m.next step = .ok m') :
    take step m.activities m.machine = .ok m'.activities m'.machine := by
  unfold next at h
  cases htake : take step m.activities m.machine with
  | ok activities machine =>
    rw [htake] at h
    cases h
    rfl
  | error fault machine =>
    rw [htake] at h
    cases h

/-- In a step a CPU picks at most once, and that is a scan from its cursor. -/
theorem Sound.sweeps (h : m.Sound) (hv : cfg.IsValid) (hp : cfg.effectivePolicy = .fifo)
    (hallows : m.Allows step) (hnext : m.next step = .ok m') (cpu : Fin cfg.ncpu) :
    Sweeps hv.maxProcs_pos (m.machine.scheduler.cpu cpu).cursor
      ((m.pickOf? cpu step).toList.map (m, ·)) (m'.machine.scheduler.cpu cpu).cursor := by
  have hs := h.scheduler
  have hpos := hv.maxProcs_pos
  by_cases hpick : step = .act (.pick cpu)
  · subst hpick
    obtain ⟨reply, t, hperform, htake⟩ := exists_ok_of_bind (take_of_next hnext)
    obtain ⟨found, t', hfound, hreply⟩ := exists_ok_of_bind hperform
    obtain rfl : t' = t := by injection hreply
    obtain rfl : t' = m'.machine := by injection htake
    obtain ⟨effects, hpicks, -, hscheduler⟩ :=
      h.exists_effects_of_answer (pickAndDrop_ensures hs hv cpu.isLt) hfound
    have hanswer : m.pickOf? cpu (.act (.pick cpu)) = some found := by
      rw [pickOf?, if_pos rfl, answer?, hfound]
    rw [hanswer, hscheduler, hpicks.cursor_eq hp hpos]
    exact .cons (hpicks.scans hp hpos).1 (.nil _)
  by_cases hbegin : step = .begin cpu
  · subst hbegin
    have hidle := h.current_of_allows hallows
    obtain ⟨found, t, hfound, htake⟩ := exists_ok_of_bind (take_of_next hnext)
    obtain rfl : t = m'.machine := by injection htake
    obtain ⟨effects, hbegins, -, hscheduler⟩ :=
      h.exists_effects_of_answer (beginTurn_ensures hs hv cpu.isLt hidle) hfound
    have hanswer : m.pickOf? cpu (.begin cpu) = some found := by
      rw [pickOf?, if_pos rfl, answer?, hfound]
    obtain ⟨_, _, -, hpicks, -⟩ := hbegins.picks
    rw [hanswer, hscheduler, hbegins.cursor_eq hp hpos]
    exact .cons (hpicks.scans hp hpos).1 (.nil _)
  · obtain ⟨effects, hadvances⟩ := h.advances hv hallows hnext
    have hnone : m.pickOf? cpu step = none := by
      unfold pickOf?
      split
      case h_1 c =>
        refine if_neg ?_
        rintro rfl
        exact hpick rfl
      case h_2 c =>
        refine if_neg ?_
        rintro rfl
        exact hbegin rfl
      case h_3 => rfl
    have hkept : ∀ cursor, .aim cpu cursor ∉ effects := fun cursor hmem =>
      (hadvances.takes.picks_of_mem_aim hmem).elim hpick hbegin
    rw [hnone, hadvances.scheduler_eq, Effect.cursor_applyAll hkept]
    exact .nil _

end Moment

namespace Path

variable {a b c : Moment cfg} {steps : List Step}

theorem picksOf_append {step : Step} (h : Path a steps b) (cpu : Nat) :
    a.picksOf cpu (steps ++ [step])
      = a.picksOf cpu steps ++ (b.pickOf? cpu step).toList.map (b, ·) := by
  rw [Moment.picksOf, h.observe_append, Moment.observe_singleton]
  rfl

/-- The picks of a CPU in a run scan the table in turn, whatever other CPUs do in between. -/
theorem sweeps (h : Path a steps b) (hv : cfg.IsValid) (hp : cfg.effectivePolicy = .fifo)
    (ha : a.Sound) (cpu : Fin cfg.ncpu) :
    Sweeps hv.maxProcs_pos (a.machine.scheduler.cpu cpu).cursor (a.picksOf cpu steps)
      (b.machine.scheduler.cpu cpu).cursor := by
  induction h with
  | refl => exact .nil _
  | tail hbefore hallows hnext ih =>
    rw [hbefore.picksOf_append]
    exact ih.append ((ha.path hv hbefore).sweeps hv hp hallows hnext cpu)

/-- Under the table scan nobody starves.  Between two picks of a slot by the same CPU, the CPU picks
every other slot that is runnable whenever it finds somebody. -/
theorem scan_passes_nobody (hv : cfg.IsValid) (hp : cfg.policy = .fifo) (ha : Reachable a)
    (h : Path a steps b) (cpu : Fin cfg.ncpu) {x y : Fin cfg.maxProcs} (hne : y ≠ x)
    {m m' : Moment cfg} {before between after : List (Moment cfg × Option (Fin cfg.maxProcs))}
    (hpicks : a.picksOf cpu steps
      = before ++ (m, some x) :: between ++ (m', some x) :: after)
    (hrunnable : ∀ pick ∈ between ++ [(m', some x)], pick.2.isSome = true →
      (pick.1.machine.scheduler.table.record y).state = .runnable) :
    ∃ pick ∈ between, pick.2 = some y := by
  have heffective : cfg.effectivePolicy = .fifo := by simp [Config.effectivePolicy, hp]
  have hsound := ha.sound hv
  have hsweeps := h.sweeps hv heffective hsound cpu
  rw [hpicks, List.append_assoc] at hsweeps
  obtain ⟨cursor, hcursor, hfirst⟩ := hsweeps.of_append (hsound.scheduler.cursor_lt cpu)
  cases hfirst with
  | cons _ hrest =>
    exact hrest.exists_pick (cursorPast_lt hcursor (some x)) (gap_cursorPast_lt hcursor hne)
      hrunnable

end Path

/-- A run in which a CPU goes round a table of two, all in the window of a wakeup. -/
def roundTheTable : List Step :=
  [.act (.fork "left" none none), .act (.fork "right" none none), .begin 0, .finish 0 (.sleep 7),
    .wakeup 7, .begin 0, .finish 0 .yield, .begin 0]

theorem roundTheTable_passes_nobody : ∃ b ∈ (Moment.fresh .tabled).walk? roundTheTable,
    (∃ activity ∈ b.activities, activity.isWindowOf Config.leftSlot 1 = true) ∧
    ∃ m m' between, (Moment.fresh .tabled).picksOf 0 roundTheTable
      = [] ++ (m, some Config.leftSlot) :: between ++ [(m', some Config.leftSlot)] ∧
        ∃ pick ∈ between, pick.2 = some Config.rightSlot := by
  have hwalk : ∃ b ∈ (Moment.fresh .tabled).walk? roundTheTable,
      ∃ activity ∈ b.activities, activity.isWindowOf Config.leftSlot 1 = true := by decide +kernel
  have hfound : ((Moment.fresh .tabled).picksOf 0 roundTheTable).map Prod.snd
      = [some Config.leftSlot, some Config.rightSlot, some Config.leftSlot] := by decide +kernel
  have hrunnable : ∀ pick ∈ (Moment.fresh .tabled).picksOf 0 roundTheTable,
      (pick.1.machine.scheduler.table.record Config.rightSlot).state = .runnable := by
    decide +kernel
  obtain ⟨b, hwalk, hwindow⟩ := hwalk
  obtain ⟨⟨m, _⟩, _, hpicks, rfl, hrest⟩ := List.map_eq_cons_iff.mp hfound
  obtain ⟨middle, _, rfl, -, hlast⟩ := List.map_eq_cons_iff.mp hrest
  obtain ⟨⟨m', _⟩, _, rfl, rfl, hnil⟩ := List.map_eq_cons_iff.mp hlast
  obtain rfl := List.map_eq_nil_iff.mp hnil
  have hne : Config.rightSlot ≠ Config.leftSlot := by decide
  change (Moment.fresh .tabled).picksOf 0 roundTheTable
    = [] ++ (m, some Config.leftSlot) :: [middle] ++ [(m', some Config.leftSlot)] at hpicks
  refine ⟨b, hwalk, hwindow, m, m', [middle], hpicks, ?_⟩
  refine Path.scan_passes_nobody (by decide) rfl ⟨[], .refl _⟩ (path_of_walk? hwalk) ⟨0, by decide⟩
    hne hpicks fun pick hmem _ => hrunnable pick ?_
  rw [hpicks]
  exact List.mem_cons_of_mem _ hmem

end FeedbackQueue
