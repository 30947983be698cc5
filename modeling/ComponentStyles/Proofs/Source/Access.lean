import Mathlib.Algebra.BigOperators.Group.Finset.Basic
import ComponentStyles.Proofs.Source.Readers
import ComponentStyles.Proofs.Source.Interleaving

/-!
Read access, counted.

Taking a snapshot acquires read access for a thread and dropping it releases it.  Behind every
interleaving a thread holds what it has acquired less what it has given back, where it can give back
only what it holds.  A thread that holds nothing has no entry among the readers: so the test for an
entry is a test for read access, and the entries add up to all holds there are.
-/

namespace ComponentStyles

namespace Signals

variable {signals after : Signals}

/-- Every reader has one entry, and holds read access at least once. -/
structure ReadersHold (signals : Signals) : Prop where
  distinct : signals.readers.keys.Nodup
  positive : ∀ entry ∈ signals.readers, 0 < entry.2

namespace ReadersHold

theorem initial : Signals.initial.ReadersHold :=
  ⟨List.nodup_nil, fun _ inside => absurd inside List.not_mem_nil⟩

theorem acquire (sound : signals.ReadersHold) (thread : Nat) :
    (signals.acquire thread).ReadersHold := by
  refine ⟨Table.nodup_keys_put sound.distinct _ _, ?_⟩
  intro entry inside
  rcases Table.mem_put inside with new | old
  · rw [new]
    exact Nat.succ_pos _
  · exact sound.positive entry old

theorem release (sound : signals.ReadersHold) (thread : Nat) :
    (signals.release thread).ReadersHold := by
  unfold Signals.release
  split
  · rename_i holds held
    split
    · rename_i several
      refine ⟨Table.nodup_keys_put sound.distinct _ _, ?_⟩
      intro entry inside
      rcases Table.mem_put inside with new | old
      · rw [new]
        exact Nat.sub_pos_of_lt several
      · exact sound.positive entry old
    · refine ⟨Table.nodup_keys_remove sound.distinct _, ?_⟩
      intro entry inside
      exact sound.positive entry (List.mem_of_mem_filter inside)
  · exact sound

theorem keeps (sound : signals.ReadersHold) (kept : signals.KeepsReaders after) :
    after.ReadersHold := by
  constructor
  · rw [kept.readers]
    exact sound.distinct
  · rw [kept.readers]
    exact sound.positive

theorem mem_readers_iff (sound : signals.ReadersHold) {thread count : Nat} :
    (thread, count) ∈ signals.readers ↔ 0 < count ∧ signals.holds thread = count := by
  constructor
  · intro inside
    have held := Table.get?_of_distinct sound.distinct inside
    exact ⟨sound.positive _ inside, by rw [holds, held, Option.getD_some]⟩
  · rintro ⟨positive, held⟩
    unfold holds at held
    cases found : signals.readers.get? thread with
    | none =>
        rw [found, Option.getD_none] at held
        exact absurd held (Nat.ne_of_lt positive)
    | some stored =>
        rw [found, Option.getD_some] at held
        exact Table.mem_of_get? (held ▸ found)

theorem mem_keys_iff (sound : signals.ReadersHold) {thread : Nat} :
    thread ∈ signals.readers.keys ↔ 0 < signals.holds thread := by
  constructor
  · intro known
    obtain ⟨⟨_, count⟩, inside, rfl⟩ := List.mem_map.mp known
    obtain ⟨positive, held⟩ := sound.mem_readers_iff.mp inside
    exact held.symm ▸ positive
  · intro holding
    exact List.mem_map_of_mem (sound.mem_readers_iff.mpr ⟨holding, rfl⟩)

theorem mayRead_iff (sound : signals.ReadersHold) (thread : Nat) :
    signals.mayRead thread = true ↔ 0 < signals.holds thread := by
  unfold mayRead holds
  cases held : signals.readers.get? thread with
  | none => simp
  | some count =>
      have positive := sound.positive _ (Table.mem_of_get? held)
      simpa using positive

/-- The entries add up to what the threads hold, whichever threads that hold nothing are added. -/
theorem activeReaders_eq (sound : signals.ReadersHold) {threads : Finset Nat}
    (covered : ∀ thread, 0 < signals.holds thread → thread ∈ threads) :
    signals.activeReaders = ∑ thread ∈ threads, signals.holds thread := by
  have counts : signals.readers.map (·.2) = signals.readers.keys.map signals.holds := by
    rw [Table.keys, List.map_map]
    apply List.map_congr_left
    intro entry inside
    exact (sound.mem_readers_iff.mp inside).2.symm
  have entries : signals.activeReaders =
      ∑ thread ∈ signals.readers.keys.toFinset, signals.holds thread := by
    rw [List.sum_toFinset _ sound.distinct, ← counts]
    rfl
  rw [entries]
  apply Finset.sum_subset
  · intro thread known
    exact covered thread (sound.mem_keys_iff.mp (List.mem_toFinset.mp known))
  · intro thread _ unknown
    rw [List.mem_toFinset, sound.mem_keys_iff] at unknown
    exact Nat.eq_zero_of_not_pos unknown

theorem activeReaders_congr (sound : signals.ReadersHold) (later : after.ReadersHold)
    (same : ∀ thread, after.holds thread = signals.holds thread) :
    after.activeReaders = signals.activeReaders := by
  have covered : ∀ thread, 0 < signals.holds thread →
      thread ∈ signals.readers.keys.toFinset := by
    intro thread holding
    exact List.mem_toFinset.mpr (sound.mem_keys_iff.mpr holding)
  rw [sound.activeReaders_eq covered,
    later.activeReaders_eq fun thread holding => covered thread (same thread ▸ holding)]
  exact Finset.sum_congr rfl fun thread _ => same thread

end ReadersHold

theorem release_of_not_mayRead {thread : Nat} (without : signals.mayRead thread = false) :
    signals.release thread = signals := by
  have absent := Option.not_isSome_iff_eq_none.mp (Bool.eq_false_iff.mp without)
  rw [release, absent]

end Signals

def SourceAction.acquires : SourceAction → Bool
  | .acquire _ => true
  | _ => false

theorem SourceAction.acquires_eq_false {action : SourceAction}
    (other : ∀ thread, action ≠ .acquire thread) : action.acquires = false := by
  cases action with
  | acquire thread => exact absurd rfl (other thread)
  | _ => rfl

inductive ReadingEffect (before : Signals) : SourceAction → Signals → Prop where
  | acquiring (thread : Nat) : ReadingEffect before (.acquire thread) (before.acquire thread)
  | releasing (thread : Nat) : ReadingEffect before (.release thread) (before.release thread)
  | keeping {action : SourceAction} {after : Signals} :
      (∀ thread, action ≠ .acquire thread) → (∀ thread, action ≠ .release thread) →
      before.KeepsReaders after → ReadingEffect before action after

namespace ReadingEffect

variable {before after : Signals} {action : SourceAction}

theorem holds (effect : ReadingEffect before action after) (thread : Nat) :
    after.holds thread =
      if action = .acquire thread then before.holds thread + 1
      else if action = .release thread then before.holds thread - 1
      else before.holds thread := by
  cases effect with
  | acquiring other =>
      rw [Signals.holds_acquire]
      simp only [SourceAction.acquire.injEq, reduceCtorEq, if_false]
  | releasing other =>
      rw [Signals.holds_release]
      simp only [SourceAction.release.injEq, reduceCtorEq, if_false]
  | keeping acquires releases kept =>
      rw [if_neg (acquires thread), if_neg (releases thread)]
      exact kept.holds thread

theorem acquisitions (effect : ReadingEffect before action after) :
    after.acquisitions = before.acquisitions + if action.acquires then 1 else 0 := by
  cases effect with
  | acquiring other => rfl
  | releasing other => exact before.acquisitions_release other
  | keeping acquires releases kept =>
      rw [SourceAction.acquires_eq_false acquires]
      exact kept.acquisitions

theorem readersHold (effect : ReadingEffect before action after) (sound : before.ReadersHold) :
    after.ReadersHold := by
  cases effect with
  | acquiring other => exact sound.acquire other
  | releasing other => exact sound.release other
  | keeping acquires releases kept => exact sound.keeps kept

end ReadingEffect

namespace SourceWorld

theorem act_reading (world : SourceWorld) (action : SourceAction) :
    ReadingEffect world.signals action (world.act action).signals := by
  cases action with
  | acquire thread => exact .acquiring thread
  | release thread => exact .releasing thread
  | call thread entry => exact .keeping nofun nofun (Signals.KeepsReaders.refl _)
  | turn number =>
      have kept : world.signals.KeepsReaders (world.turn number).signals := by
        rcases world.turn_signals number with same | posted
        · rw [same]
          exact Signals.KeepsReaders.refl _
        · rw [posted]
          exact world.signals.keepsReaders_postFlush
      exact .keeping nofun nofun kept
  | runTask => exact .keeping nofun nofun world.signals.keepsReaders_runTask
  | event event => exact .keeping nofun nofun (world.signals.keepsReaders_apply event)

theorem readersHold_after (schedule : List SourceAction) :
    (initial.after schedule).signals.ReadersHold :=
  after_keeps (fun current => current.signals.ReadersHold)
    (fun current action _ sound => (current.act_reading action).readersHold sound)
    Signals.ReadersHold.initial

end SourceWorld

/-! ### Schedules -/

def effectiveReleases (thread : Nat) : Nat → List SourceAction → Nat
  | _, [] => 0
  | held, action :: rest =>
      if action = .acquire thread then effectiveReleases thread (held + 1) rest
      else if action = .release thread ∧ 0 < held then
        effectiveReleases thread (held - 1) rest + 1
      else effectiveReleases thread held rest

/-- The snapshots that a thread takes in a stretch of a schedule are dropped in it, in any order,
and no others. -/
structure BalancedFor (thread : Nat) (stretch : List SourceAction) : Prop where
  taken : ∀ front, front <+: stretch → front.count (.release thread) ≤ front.count (.acquire thread)
  dropped : stretch.count (.release thread) = stretch.count (.acquire thread)

def underSnapshot (thread : Nat) (stretch : List SourceAction) : List SourceAction :=
  .acquire thread :: (stretch ++ [.release thread])

variable {thread : Nat} {stretch : List SourceAction}

theorem effectiveReleases_eq_count {held : Nat}
    (covered : ∀ front, front <+: stretch →
      front.count (.release thread) ≤ held + front.count (.acquire thread)) :
    effectiveReleases thread held stretch = stretch.count (.release thread) := by
  induction stretch generalizing held with
  | nil => rfl
  | cons action rest inductionHypothesis =>
      have behind : ∀ front, front <+: rest →
          (action :: front).count (.release thread) ≤
            held + (action :: front).count (.acquire thread) := by
        intro front inside
        exact covered (action :: front) ((List.prefix_cons_inj action).mpr inside)
      simp only [List.count_cons, beq_iff_eq] at behind
      rw [effectiveReleases, List.count_cons]
      by_cases acquires : action = .acquire thread
      · subst acquires
        simp only [reduceCtorEq, if_true, if_false] at behind
        have later : ∀ front, front <+: rest →
            front.count (.release thread) ≤ held + 1 + front.count (.acquire thread) := by
          intro front inside
          have counted := behind front inside
          omega
        rw [if_pos rfl, inductionHypothesis later]
        rfl
      · by_cases releases : action = .release thread
        · subst releases
          simp only [reduceCtorEq, if_true, if_false] at behind
          have holding : 0 < held := behind [] List.nil_prefix
          have later : ∀ front, front <+: rest →
              front.count (.release thread) ≤ held - 1 + front.count (.acquire thread) := by
            intro front inside
            have counted := behind front inside
            omega
          rw [if_neg nofun, if_pos ⟨rfl, holding⟩, inductionHypothesis later,
            if_pos (beq_self_eq_true _)]
        · simp only [acquires, releases, if_false] at behind
          rw [if_neg acquires, if_neg fun both => releases both.1, inductionHypothesis behind]
          simp [releases]

theorem BalancedFor.of_absent (acquires : .acquire thread ∉ stretch)
    (releases : .release thread ∉ stretch) : BalancedFor thread stretch := by
  constructor
  · intro front inside
    have absent : front.count (.release thread) = 0 :=
      List.count_eq_zero.mpr fun present => releases (inside.subset present)
    rw [absent]
    exact Nat.zero_le _
  · rw [List.count_eq_zero.mpr acquires, List.count_eq_zero.mpr releases]

theorem BalancedFor.underSnapshot (balanced : BalancedFor thread stretch) (reader : Nat) :
    BalancedFor thread (underSnapshot reader stretch) := by
  constructor
  · intro front inside
    rw [ComponentStyles.underSnapshot, List.prefix_cons_iff] at inside
    rcases inside with none | ⟨later, split, inside⟩
    · rw [none]
      rfl
    · rcases List.prefix_concat_iff.mp inside with whole | inside
      · have counted := balanced.dropped
        simp only [split, whole, List.count_cons, List.count_append, List.count_nil, beq_iff_eq,
          SourceAction.acquire.injEq, SourceAction.release.injEq, reduceCtorEq, if_false]
        omega
      · have counted := balanced.taken later inside
        simp only [split, List.count_cons, beq_iff_eq, reduceCtorEq, if_false]
        omega
  · have counted := balanced.dropped
    simp only [ComponentStyles.underSnapshot, List.count_cons, List.count_append, List.count_nil,
      beq_iff_eq, SourceAction.acquire.injEq, SourceAction.release.injEq, reduceCtorEq, if_false]
    omega

namespace SourceWorld

variable {world : SourceWorld}

/-- What a thread holds, and what it has given back, is what it held at first and has acquired. -/
theorem holds_after (world : SourceWorld) (schedule : List SourceAction) (thread : Nat) :
    (world.after schedule).signals.holds thread +
        effectiveReleases thread (world.signals.holds thread) schedule =
      world.signals.holds thread + schedule.count (.acquire thread) := by
  induction schedule generalizing world with
  | nil => rfl
  | cons action rest inductionHypothesis =>
      have behind := inductionHypothesis (world.act action)
      have held := (world.act_reading action).holds thread
      rw [after_cons, effectiveReleases, List.count_cons]
      by_cases acquires : action = .acquire thread
      · rw [if_pos acquires] at held ⊢
        rw [held] at behind
        simp only [acquires, beq_self_eq_true, if_true] at behind ⊢
        omega
      · rw [if_neg acquires] at held ⊢
        simp only [beq_iff_eq, acquires, if_false]
        by_cases effective : action = .release thread ∧ 0 < world.signals.holds thread
        · rw [if_pos effective.1] at held
          rw [if_pos effective]
          rw [held] at behind
          omega
        · have kept : (world.act action).signals.holds thread = world.signals.holds thread := by
            rw [held]
            split
            · rename_i releases
              have nothing : world.signals.holds thread = 0 :=
                Nat.eq_zero_of_not_pos fun holding => effective ⟨releases, holding⟩
              rw [nothing]
            · rfl
          rw [if_neg effective]
          rw [kept] at behind
          exact behind

theorem acquisitions_after (world : SourceWorld) (schedule : List SourceAction) :
    (world.after schedule).signals.acquisitions =
      world.signals.acquisitions + schedule.countP SourceAction.acquires := by
  induction schedule generalizing world with
  | nil => rfl
  | cons action rest inductionHypothesis =>
      rw [after_cons, inductionHypothesis, (world.act_reading action).acquisitions,
        List.countP_cons]
      omega

theorem holds_after_balanced (world : SourceWorld) (balanced : BalancedFor thread stretch) :
    (world.after stretch).signals.holds thread = world.signals.holds thread := by
  have effective : effectiveReleases thread (world.signals.holds thread) stretch =
      stretch.count (.release thread) := by
    apply effectiveReleases_eq_count
    intro front inside
    exact (balanced.taken front inside).trans (Nat.le_add_left _ _)
  have counted := world.holds_after stretch thread
  rw [effective, balanced.dropped] at counted
  exact Nat.add_right_cancel counted

theorem acquire_mem_of_holds {schedule : List SourceAction}
    (holding : 0 < (initial.after schedule).signals.holds thread) :
    .acquire thread ∈ schedule := by
  have counted := initial.holds_after schedule thread
  have start : initial.signals.holds thread = 0 := rfl
  rw [start] at counted
  exact List.count_pos_iff.mp (by omega)

/-- What one thread does about its read access concerns no other. -/
theorem access_act (sound : world.signals.ReadersHold) {action : SourceAction}
    (acquires : action ≠ .acquire thread) (releases : action ≠ .release thread) :
    (world.act action).signals.mayRead thread = world.signals.mayRead thread ∧
      (world.act action).signals.holds thread = world.signals.holds thread := by
  have held := (world.act_reading action).holds thread
  rw [if_neg acquires, if_neg releases] at held
  refine ⟨?_, held⟩
  rw [Bool.eq_iff_iff, sound.mayRead_iff, ((world.act_reading action).readersHold sound).mayRead_iff, held]

end SourceWorld

/-- Behind every interleaving, a thread may read exactly if it has acquired more often than it has
released with effect, and a release by a thread that may not read does nothing; no thread's access
depends on what others do.  The readers are exactly the threads that hold something, each with what
it holds, and their entries add up to all holds; every acquisition has been counted.  Snapshots
that are taken and dropped again leave every thread with what it had. -/
theorem read_access_counted (schedule : List SourceAction) :
    let world := SourceWorld.initial.after schedule
    let reached := world.signals
    (∀ thread,
      reached.holds thread + effectiveReleases thread 0 schedule =
        schedule.count (.acquire thread) ∧
      (reached.mayRead thread = true ↔
        effectiveReleases thread 0 schedule < schedule.count (.acquire thread)) ∧
      (reached.mayRead thread = false → reached.release thread = reached)) ∧
    (∀ action thread, action ≠ .acquire thread → action ≠ .release thread →
      (world.act action).signals.mayRead thread = reached.mayRead thread ∧
        (world.act action).signals.holds thread = reached.holds thread) ∧
    (reached.readers.keys.Nodup ∧ ∀ thread count,
      (thread, count) ∈ reached.readers ↔ 0 < count ∧ reached.holds thread = count) ∧
    (∀ threads : Finset Nat, (∀ thread, .acquire thread ∈ schedule → thread ∈ threads) →
      reached.activeReaders = ∑ thread ∈ threads, reached.holds thread) ∧
    reached.acquisitions = schedule.countP SourceAction.acquires ∧
    ∀ stretch,
      (∀ thread, BalancedFor thread stretch →
        (world.after stretch).signals.holds thread = reached.holds thread ∧
          (world.after stretch).signals.mayRead thread = reached.mayRead thread) ∧
      ((∀ thread, BalancedFor thread stretch) →
        (world.after stretch).signals.activeReaders = reached.activeReaders) := by
  intro world reached
  have sound : reached.ReadersHold := SourceWorld.readersHold_after schedule
  refine ⟨?_, ?_, ⟨sound.distinct, fun _ _ => sound.mem_readers_iff⟩, ?_, ?_, ?_⟩
  · intro thread
    have counted := SourceWorld.initial.holds_after schedule thread
    have start : SourceWorld.initial.signals.holds thread = 0 := rfl
    rw [start, Nat.zero_add] at counted
    refine ⟨counted, ?_, Signals.release_of_not_mayRead⟩
    rw [sound.mayRead_iff, ← counted]
    exact (Nat.lt_add_left_iff_pos).symm
  · intro action thread acquires releases
    exact SourceWorld.access_act sound acquires releases
  · intro threads covered
    apply sound.activeReaders_eq
    intro thread holding
    exact covered thread (SourceWorld.acquire_mem_of_holds holding)
  · exact (SourceWorld.initial.acquisitions_after schedule).trans (Nat.zero_add _)
  · intro stretch
    have later : (world.after stretch).signals.ReadersHold := by
      rw [← SourceWorld.after_append]
      exact SourceWorld.readersHold_after _
    constructor
    · intro thread balanced
      have same := world.holds_after_balanced balanced
      refine ⟨same, ?_⟩
      rw [Bool.eq_iff_iff, later.mayRead_iff, same, sound.mayRead_iff]
    · intro balanced
      exact sound.activeReaders_congr later fun thread =>
        world.holds_after_balanced (balanced thread)

def readsOfTwo : List SourceAction :=
  [.acquire 1, .release 2, .acquire 2, .call 1 .barrier, .acquire 1, .event .markUncommitted,
    .release 1, .turn 0, .release 2, .release 2]

theorem access_of_two :
    let world := SourceWorld.initial.after readsOfTwo
    let stretch := underSnapshot 2 (underSnapshot 1 [.event .commitAll])
    (world.signals.mayRead 1 = true ∧ world.signals.mayRead 2 = false) ∧
      world.signals.release 2 = world.signals ∧
      (world.act (.acquire 2)).signals.mayRead 1 = world.signals.mayRead 1 ∧
      (1, 1) ∈ world.signals.readers ∧
      world.signals.activeReaders = world.signals.holds 1 + world.signals.holds 2 ∧
      world.signals.acquisitions = 3 ∧
      (world.after stretch).signals.holds 2 = world.signals.holds 2 ∧
      (world.after stretch).signals.activeReaders = world.signals.activeReaders := by
  intro world stretch
  obtain ⟨counted, others, table, sums, acquired, brackets⟩ := read_access_counted readsOfTwo
  have held : world.signals.holds 1 = 1 := by
    have total := (counted 1).1
    have released : effectiveReleases 1 0 readsOfTwo = 1 := by decide
    have taken : readsOfTwo.count (.acquire 1) = 1 + 1 := by decide
    rw [released, taken] at total
    exact Nat.add_right_cancel total
  have refused : world.signals.mayRead 2 = false := by
    rw [Bool.eq_false_iff, ne_eq, (counted 2).2.1]
    decide
  have balanced : ∀ thread, BalancedFor thread stretch := by
    intro thread
    have inside : BalancedFor thread [.event .commitAll] :=
      .of_absent (by simp) (by simp)
    exact (inside.underSnapshot 1).underSnapshot 2
  refine ⟨⟨(counted 1).2.1.mpr (by decide), refused⟩, (counted 2).2.2 refused,
    (others (.acquire 2) 1 (by decide) (by decide)).1, (table.2 1 1).mpr ⟨Nat.one_pos, held⟩, ?_,
    acquired, ((brackets stretch).1 2 (balanced 2)).1, (brackets stretch).2 balanced⟩
  refine (sums {1, 2} ?_).trans (Finset.sum_pair (by decide))
  intro thread acquires
  simp only [readsOfTwo, List.mem_cons, SourceAction.acquire.injEq, reduceCtorEq, false_or,
    or_false, List.not_mem_nil] at acquires
  rw [Finset.mem_insert, Finset.mem_singleton]
  omega

end ComponentStyles
