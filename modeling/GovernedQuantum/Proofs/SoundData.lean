import GovernedQuantum.Proofs.GroupConsistency
import GovernedQuantum.Proofs.Moves
import Mathlib.Algebra.Order.Field.Basic
import Mathlib.Data.Rat.Cast.Order
import Mathlib.Tactic.NormNum

/-!
# Sound data

Tables are filled by many instructions, each with its own check or with none. This file says what
all of them keep: every entry stands under its own name or number, and its numbers are within their
ranges.

* `Binary64.value`: the number that a bit pattern stands for.
* `Physics.InRange`: outcomes are levels. `SeededPhysics.inRange`: those of the seeded physics are.
* `Tables.Sound`: **everything that is stored is in order**, for a session on a given node.
* `Session.data_stays_sound`: it is so in every session that calls can reach.
-/

namespace GovernedQuantum

/-! ## Numbers -/

namespace Binary64

/-- The number that a finite bit pattern stands for. -/
def value (x : Binary64) : ℚ :=
  (if x.isNegative then -1 else 1) * (x.significand * (2 : ℚ) ^ x.exponent)

theorem significand_lt (x : Binary64) : x.significand < 2 ^ 53 := by
  have := Nat.mod_lt x.magnitude (show 0 < hiddenBit by decide)
  unfold significand hiddenBit at *
  dsimp only
  split <;> omega

/-- Up to one, a magnitude has a negative exponent that outweighs its significand. -/
theorem significand_le_pow {x : Binary64} (small : x.magnitude ≤ 0x3FF0000000000000) :
    ∃ n : Nat, x.exponent = -(n : Int) ∧ x.significand ≤ 2 ^ n := by
  have pow {n : Nat} (large : 53 ≤ n) : x.significand ≤ 2 ^ n :=
    x.significand_lt.le.trans (Nat.pow_le_pow_right (by decide) large)
  by_cases zero : x.magnitude / hiddenBit = 0
  · exact ⟨1074, by rw [exponent, if_pos zero]; rfl, pow (by decide)⟩
  · refine ⟨1075 - x.magnitude / hiddenBit, ?_, ?_⟩
    · rw [exponent, if_neg zero]
      unfold hiddenBit at *
      omega
    · -- where the exponent is -52, nothing but 1 itself is left
      by_cases one : x.magnitude / hiddenBit = 1023
      · rw [significand, if_neg zero, one]
        unfold hiddenBit at *
        omega
      · apply pow
        unfold hiddenBit at *
        omega

/-- Between the comparisons with 0 and 1 lie the magnitudes up to one, and negative zero. -/
theorem magnitude_of_inUnit {x : Binary64} (unit : x.inUnit = true) :
    x.magnitude ≤ 0x3FF0000000000000 ∧ (x.isNegative = true → x.magnitude = 0) := by
  rw [inUnit, Bool.and_eq_true, le_iff, le_iff] at unit
  obtain ⟨⟨-, -, low⟩, -, -, high⟩ := unit
  rw [show (0.0 : Binary64).key = 0 by decide] at low
  rw [show (1.0 : Binary64).key = 0x3FF0000000000000 by decide] at high
  rw [key] at low high
  cases sign : x.isNegative with
  | true =>
    rw [sign, if_pos rfl] at low
    exact ⟨by omega, fun _ => by omega⟩
  | false =>
    rw [sign, if_neg Bool.false_ne_true] at high
    exact ⟨by omega, fun h => absurd h Bool.false_ne_true⟩

/-- A proper number from 0 to 1. -/
structure IsScore (x : Binary64) : Prop where
  finite : x.isFinite = true
  nonneg : 0 ≤ x.value
  le_one : x.value ≤ 1

/-- **What lies in the unit interval by its comparisons lies there by its value.** -/
theorem isScore_of_inUnit {x : Binary64} (unit : x.inUnit = true) : x.IsScore := by
  obtain ⟨small, negative⟩ := magnitude_of_inUnit unit
  have finite : x.isFinite = true :=
    decide_eq_true (Nat.lt_of_le_of_lt small (show _ < infiniteMagnitude by decide))
  cases sign : x.isNegative with
  | true =>
    have zero : x.value = 0 := by simp [value, significand, negative sign]
    exact ⟨finite, zero.ge, zero.le.trans zero_le_one⟩
  | false =>
    obtain ⟨n, exponent, le⟩ := significand_le_pow small
    have le : (x.significand : ℚ) ≤ 2 ^ n := by exact_mod_cast le
    have quotient : x.value = x.significand / 2 ^ n := by
      rw [value, sign, if_neg Bool.false_ne_true, one_mul, exponent, zpow_neg, zpow_natCast,
        div_eq_mul_inv]
    refine ⟨finite, ?_, ?_⟩ <;> rw [quotient]
    · positivity
    · exact (div_le_one (by positivity)).2 le

end Binary64

/-! ## Outcomes -/

/-- **Outcomes are levels** of the qudit that is measured. -/
def Physics.InRange (π : Type) [Physics π] : Prop :=
  ∀ (p : π) (d : Nat), 0 < d → (Physics.measure p d).1.outcome < d

namespace Random.Stream

theorem belowFrom_lt {bound : Nat} (positive : 0 < bound) (zone fuel : Nat) (s : Stream) :
    (belowFrom bound zone fuel s).1 < bound := by
  induction fuel generalizing s with
  | zero => exact positive
  | succ fuel ih =>
    rw [belowFrom]
    dsimp only
    split
    · have word : s.word.1.toNat < wordSpan := s.word.1.toNat_lt
      exact Nat.div_lt_of_lt_mul (Nat.mul_lt_mul_of_pos_right word positive)
    · exact ih s.word.2

end Random.Stream

/-- The seeded physics draws below the number of levels. -/
theorem SeededPhysics.inRange : Physics.InRange SeededPhysics := by
  intro p d positive
  have drawn : (p.stream.below (max d 1)).1 < max d 1 :=
    Random.Stream.belowFrom_lt (Nat.le_max_right d 1) _ _ p.stream
  exact Nat.lt_of_lt_of_eq drawn (Nat.max_eq_left positive)

/-! ## Entries of tables -/

namespace Table

variable {κ α : Type} [LT κ] [DecidableEq κ] {P : κ → α → Prop} {t : Table κ α}

/-- Every entry satisfies `P`. -/
def Each (P : κ → α → Prop) (t : Table κ α) : Prop := ∀ k v, t.find? k = some v → P k v

namespace Each

theorem empty : (Table.empty : Table κ α).Each P := fun _ _ found => absurd found (by simp)

theorem erase (h : t.Each P) (k : κ) : (t.erase k).Each P := by
  intro j w found
  rw [find?_erase] at found
  split at found
  · exact absurd found (by simp)
  · exact h j w found

theorem map (h : t.Each P) {f : α → α} (keeps : ∀ k v, P k v → P k (f v)) :
    (t.map fun _ v => f v).Each P := by
  intro j w found
  rw [find?_map, Option.map_eq_some_iff] at found
  obtain ⟨v, old, rfl⟩ := found
  exact keeps j v (h j v old)

theorem modify (h : t.Each P) (k : κ) {f : α → α} (keeps : ∀ k v, P k v → P k (f v)) :
    (t.modify k f).Each P := by
  intro j w found
  rw [find?_modify] at found
  split at found
  · obtain ⟨v, old, rfl⟩ := Option.map_eq_some_iff.1 found
    exact keeps j v (h j v old)
  · exact h j w found

theorem insert [LE κ] [DecidableLT κ] [Std.IsLinearOrder κ] [Std.LawfulOrderLT κ]
    (h : t.Each P) {k : κ} {v : α} (new : P k v) : (t.insert k v).Each P := by
  intro j w found
  rw [find?_insert] at found
  split at found
  · rename_i same
    exact same ▸ Option.some.inj found ▸ new
  · exact h j w found

end Each

end Table

/-- A live qudit under its number. -/
structure Handle.Sound (x : Nat) (h : Handle) : Prop where
  id : h.id = x
  unmeasured : h.measurement = .unmeasured
  levels : 2 ≤ h.dimension

/-- An entity under its name. -/
structure Entity.Sound (name : String) (e : Entity) : Prop where
  name : e.name = name
  score : e.explainability.IsScore

/-- An execution window under its name. -/
structure Window.Sound (name : String) (w : Window) : Prop where
  name : w.name = name
  order : w.soft ≤ w.hard

/-- A barrier under its name: nobody takes part but the node of the session. -/
structure Barrier.Sound (node name : String) (b : Barrier) : Prop where
  name : b.name = name
  alone : b.participants = [node]

namespace Handle.Sound

variable {x : Nat} {h : Handle}

theorem allocate {d : Nat} (levels : 2 ≤ d) (x : Nat) (name : String) (now life : Nat) :
    (Handle.allocate x name d now life).Sound x :=
  ⟨rfl, rfl, levels⟩

theorem touch (now : Nat) (sound : h.Sound x) : (h.touch now).Sound x := ⟨sound.1, sound.2, sound.3⟩

theorem resetDeadline (now life : Nat) (sound : h.Sound x) : (h.resetDeadline now life).Sound x :=
  ⟨sound.1, sound.2, sound.3⟩

theorem applyGate (gate : String) (sound : h.Sound x) : (h.applyGate gate).Sound x :=
  ⟨sound.1, sound.2, sound.3⟩

theorem expire (now : Nat) (sound : h.Sound x) : (h.expire now).Sound x := by
  unfold Handle.expire
  split
  · exact ⟨sound.1, sound.2, sound.3⟩
  · exact sound

end Handle.Sound

theorem Entity.Sound.declare (name : String) : (Entity.declare name).Sound name :=
  ⟨rfl, Binary64.isScore_of_inUnit (show defaultScore.inUnit = true by decide)⟩

/-- An instruction on an entity leaves it sound: a new score is checked, and nothing renames. -/
theorem Session.Governs.sound {π γ κ : Type} {s u : Session π γ κ} {i : Instruction} {e e' : Entity}
    {name : String} (change : s.Governs i e e' u) (sound : e.Sound name) : e'.Sound name := by
  cases change with
  | @explainability score op literal =>
    exact ⟨sound.name, Binary64.isScore_of_inUnit (Option.filter_eq_some_iff.1 literal).2⟩
  | oversight | criticality | approve | deploy | verify | decide => exact ⟨sound.name, sound.score⟩

/-! ## All tables -/

/-- **Everything that is stored is in order**, for a session on the node `node`. -/
structure Tables.Sound (node : String) (t : Tables) : Prop where
  handles : t.register.handles.Each fun x h => h.Sound x
  entities : t.entities.Each fun name e => e.Sound name
  windows : t.network.windows.Each fun name w => w.Sound name
  barriers : t.network.barriers.Each fun name b => b.Sound node name
  records : ∀ r ∈ t.records, 2 ≤ r.dimension

namespace Tables.Sound

variable {node : String} {t : Tables}

theorem empty (node : String) : Tables.Sound node {} :=
  ⟨.empty, .empty, .empty, .empty, fun _ mem => absurd mem (by simp)⟩

/-- Only handles have changed. -/
theorem register (h : t.Sound node) {r : Register} (handles : r.handles.Each fun x h => h.Sound x) :
    Tables.Sound node { t with register := r } :=
  { h with handles }

theorem spend (h : t.Sound node) (name : String) (x : Nat) : (t.spend name x).Sound node :=
  { h with handles := h.handles.erase x }

theorem modifyHandle (h : t.Sound node) (x : Nat) {f : Handle → Handle}
    (keeps : ∀ x h, h.Sound x → (f h).Sound x) : (t.modifyHandle x f).Sound node :=
  h.register (h.handles.modify x keeps)

theorem putEntity (h : t.Sound node) {name : String} {e : Entity} (sound : e.Sound name) :
    (t.putEntity name e).Sound node :=
  { h with entities := h.entities.insert sound }

theorem filed (h : t.Sound node) (ticket : Ticket) : (t.filed ticket).Sound node := { h with }

end Tables.Sound

namespace Session

variable {π γ κ : Type} {s t : Session π γ κ} {i : Instruction}

theorem sound_fireTimers (h : s.tables.Sound s.settings.localNode) :
    s.fireTimers.tables.Sound s.settings.localNode :=
  h.register (h.handles.map fun _ _ sound => sound.expire _)

section Effect

variable [Physics π] [Coordinator κ]

/-- **An instruction that takes effect keeps the data sound.** -/
theorem Effect.sound (effect : s.Effect i t) (h : s.tables.Sound s.settings.localNode) :
    t.tables.Sound s.settings.localNode := by
  have touched (now : Nat) : ∀ x h, Handle.Sound x h → (h.touch now).Sound x :=
    fun _ _ sound => sound.touch now
  have renewed (now life : Nat) : ∀ x h, Handle.Sound x h → (h.resetDeadline now life).Sound x :=
    fun _ _ sound => sound.resetDeadline now life
  cases effect with
  | allocate op unbound literal =>
    have levels := of_decide_eq_true (Option.filter_eq_some_iff.1 literal).2
    exact { h with handles := h.handles.insert (.allocate levels _ _ _ _) }
  | entangle =>
    exact { h with handles := (h.handles.modify _ (renewed _ _)).modify _ (renewed _ _) }
  | disentangle => exact { h with handles := (h.handles.modify _ (touched _)).modify _ (touched _) }
  | applyGate => exact h.modifyHandle _ fun _ _ sound => (sound.applyGate _).touch _
  | @measure x q m p op operand live =>
    refine { h.spend (i.arg 0) x with records := fun r mem => ?_ }
    rcases Array.mem_push.1 mem with old | rfl
    · exact h.records r old
    · exact (h.handles x q live).levels
  | release => exact h.spend _ _
  | declare => exact h.putEntity (.declare _)
  | govern known change => exact h.putEntity (change.sound (h.entities _ _ known))
  | bind | targetNode | channel => exact { h with }
  | print => exact h
  | barrier => exact { h with barriers := h.barriers.insert (.mk rfl rfl) }
  | window op first last order => exact { h with windows := h.windows.insert (.mk rfl order) }
  | entangleRemote => exact (h.modifyHandle _ (touched _)).filed _
  | teleport => exact (h.spend _ _).filed _
  | swap => exact ((h.modifyHandle _ (touched _)).modifyHandle _ (touched _)).filed _

/-- Only measurements make records, of what the physics says. -/
theorem Effect.outcomes (effect : s.Effect i t) (inRange : Physics.InRange π)
    (h : s.tables.Sound s.settings.localNode)
    (below : ∀ r ∈ s.tables.records, r.outcome < r.dimension) :
    ∀ r ∈ t.tables.records, r.outcome < r.dimension := by
  cases effect with
  | @measure x q m p op operand live measured =>
    intro r mem
    rcases Array.mem_push.1 mem with old | rfl
    · exact below r old
    · have levels := (h.handles x q live).levels
      have outcome := inRange s.physics q.dimension (by omega)
      rwa [measured] at outcome
  | _ => exact below

end Effect

/-- **Sound data, and outcomes below their dimension** if the physics is in range. -/
structure Sound [Physics π] (s : Session π γ κ) : Prop where
  tables : s.tables.Sound s.settings.localNode
  outcomes : Physics.InRange π → ∀ r ∈ s.tables.records, r.outcome < r.dimension

namespace Sound

variable [Physics π]

theorem of_same (h : s.Sound) (same : s.SameBooks t) : t.Sound := by
  refine ⟨?_, ?_⟩ <;> rw [same.tables]
  · rw [same.settings]
    exact h.tables
  · exact h.outcomes

theorem of_noted (h : s.Sound) (noted : s.Noted t) : t.Sound := by
  rcases noted with same | same
  · exact h.of_same same
  · exact (Sound.mk (s := s.fireTimers) (sound_fireTimers h.tables) h.outcomes).of_same same

variable [Coordinator κ]

/-- **An attempt keeps a session sound.** -/
theorem of_done (h : s.Sound) (done : s.attempt i = .done t) : t.Sound := by
  have effect := attempt_done_iff.1 done
  exact ⟨effect.sameCourse.settings ▸ effect.sound h.tables,
    fun inRange => effect.outcomes inRange h.tables (h.outcomes inRange)⟩

theorem of_failed {f : Fault} (h : s.Sound) (failed : s.attempt i = .failed f t) : t.Sound := by
  rw [(attempt_failed_iff.1 failed).eq]
  exact ⟨h.tables, h.outcomes⟩

variable [Gateway γ]

/-- An event keeps a session sound. -/
theorem of_event {e : Event π γ κ} (h : e.before.Sound) : e.after.Sound := by
  obtain ⟨u, noted, outcome⟩ := e.outcome
  have ready : u.Sound := h.of_noted noted
  cases outcome with
  | idle _ same => exact ready.of_same same
  | failed _ failed same => exact (ready.of_failed failed).of_same same
  | done _ done same => exact (ready.of_done done).of_same same

/-- Soundness is kept by every move. -/
theorem kept : Kept (Sound : Session π γ κ → Prop) where
  start program annotations _ h := h.of_same (.start _ program annotations)
  move h m := by
    rcases m.books with ⟨-, noted⟩ | ⟨x, -, before, after⟩
    · exact h.of_noted noted
    · exact (of_event (h.of_same before)).of_same after
  meanwhile h := by
    rintro ⟨_, _, _, _, _, _, -, rfl⟩
    exact ⟨h.tables, h.outcomes⟩

end Sound

variable [Physics π] [Gateway γ] [Coordinator κ]

/-- **The data of every reachable session is sound**: whatever programs are run and whatever
requests are answered, every entry stands under its own name or number and within its ranges. -/
theorem data_stays_sound {s₀ s : Session π γ κ} (fresh : s₀.IsFresh) (reached : s₀.Reaches s) :
    s.tables.Sound s.settings.localNode ∧
      (Physics.InRange π → ∀ r ∈ s.tables.records, r.outcome < r.dimension) := by
  have start : s₀.Sound := by
    refine ⟨?_, ?_⟩ <;> rw [show s₀.tables = {} from fresh]
    · exact .empty _
    · intro _ r mem
      exact absurd mem (by simp)
  obtain ⟨tables, outcomes⟩ := Sound.kept.reaches start reached
  exact ⟨tables, outcomes⟩

/-- Each kind of entry is made once; then one of each is refused, or made anew. -/
def medley : Program where
  instructions :=
    [⟨.allocQudit, ["a", "3"], {}⟩, ⟨.allocQudit, ["b", "1"], {}⟩, ⟨.allocQudit, ["c", "2"], {}⟩,
      ⟨.measure, ["a"], {}⟩, ⟨.declareContract, ["bot"], {}⟩,
      ⟨.setExplainability, ["bot", "1.5"], {}⟩, ⟨.setExplainability, ["bot", "0.5"], {}⟩,
      ⟨.barrier, ["gate", "5"], {}⟩, ⟨.barrier, ["gate", "7"], {}⟩,
      ⟨.scheduleWindow, ["w", "9", "3"], {}⟩, ⟨.scheduleWindow, ["w", "3", "9"], {}⟩,
      ⟨.barrier, [], {}⟩]

/-- What is refused leaves nothing behind, and all that is left is in order. -/
theorem data_stays_sound_medley :
    (standard 1 {}).IsFresh ∧ (standard 1 {}).Reaches ((standard 1 {}).run medley none) ∧
      (((standard 1 {}).run medley none).tables.Sound "local" ∧
        ∀ r ∈ ((standard 1 {}).run medley none).tables.records, r.outcome < r.dimension) ∧
      ((standard 1 {}).run medley none).tables.register.handles.keys = [2] ∧
      ((standard 1 {}).run medley none).tables.entities.keys = ["bot"] ∧
      ((standard 1 {}).run medley none).tables.network.windows.keys = ["w"] ∧
      ((standard 1 {}).run medley none).tables.network.barriers.keys = ["gate"] ∧
      ((standard 1 {}).run medley none).tables.records.size = 1 := by
  have fresh : (standard 1 {}).IsFresh := rfl
  have reached : (standard 1 {}).Reaches ((standard 1 {}).run medley none) :=
    .run (.refl _) medley none
  obtain ⟨sound, outcomes⟩ := data_stays_sound fresh reached
  have node : ((standard 1 {}).run medley none).settings.localNode = "local" := by decide +kernel
  rw [node] at sound
  exact ⟨fresh, reached, ⟨sound, outcomes SeededPhysics.inRange⟩, by decide +kernel,
    by decide +kernel, by decide +kernel, by decide +kernel, by decide +kernel⟩

end Session

end GovernedQuantum
