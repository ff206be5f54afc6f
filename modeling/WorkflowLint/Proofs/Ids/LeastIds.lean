import Mathlib.Data.Finset.Lattice.Fold
import Mathlib.Order.Lattice.Nat
import WorkflowLint.Proofs.Ids.Collisions

/-! Ids run no further ahead of the clock than their number forces them to.
The id of a call is a maximum over the start and all times so far, and the ids together are the
least increasing ones above the start that keep up with the times.
-/

namespace WorkflowLint.Ids

/-- What the calls up to one force upon its id: it is above the start by as many as there are
calls, and above each of their times by as many as there were calls since.
-/
def forced (start : Nat) (times : List Nat) (call : Nat) : Nat :=
  max (start + (call + 1))
    ((Finset.range (call + 1)).sup (fun earlier => times.getD earlier 0 + (call - earlier)))

/-- Increasing ids above a start, each of which is at least the time of its call. -/
structure KeepsUp (start : Nat) (times ids : List Nat) : Prop where
  ordered : (start :: ids).Pairwise (· < ·)
  timely : List.Forall₂ (· ≤ ·) times ids

/-- Neither the start nor a time is so late that counting on for each call leaves the word. -/
structure Room (last : UInt64) (times : List UInt64) : Prop where
  start : last.toNat + times.length < 2 ^ 64
  times : ∀ now ∈ times, now.toNat + times.length < 2 ^ 64

-----------------------------------------------------------------------------------------
-- The maximum over the calls so far
-----------------------------------------------------------------------------------------

theorem forced_zero (start now : Nat) (more : List Nat)
    : forced start (now :: more) 0 = max now (start + 1) := by
  simp [forced, Nat.max_comm]

/-- Behind the first call the maximum is one over the other calls, with the first id as the start.
Witness: both the start and the first time count on by one for each further call.
-/
theorem forced_succ (start now : Nat) (more : List Nat) (call : Nat)
    : forced start (now :: more) (call + 1) = forced (max now (start + 1)) more call := by
  have others
      : (Finset.range (call + 1 + 1)).sup
            (fun earlier => (now :: more).getD earlier 0 + (call + 1 - earlier))
        = max (now + (call + 1))
            ((Finset.range (call + 1)).sup
              (fun earlier => more.getD earlier 0 + (call - earlier))) := by
    rw [Finset.range_add_one', Finset.sup_insert, Finset.sup_map]
    refine congrArg (max (now + (call + 1))) (Finset.sup_congr rfl (fun earlier _ => ?_))
    change more.getD earlier 0 + (call + 1 - (earlier + 1)) = _
    rw [Nat.add_sub_add_right]
  rw [forced, forced, others]
  omega

-----------------------------------------------------------------------------------------
-- Claiming ids one after the other
-----------------------------------------------------------------------------------------

section Claims

variable {last now : UInt64} {more : List UInt64}

theorem Room.claim_toNat (room : Room last (now :: more))
    : (claim last now).toNat = max now.toNat (last.toNat + 1) := by
  have start := room.start
  rw [List.length_cons] at start
  exact Ids.claim_toNat (by omega) now

theorem Room.tail (room : Room last (now :: more)) : Room (claim last now) more where
  start := by
    have start := room.start
    have first := room.times now List.mem_cons_self
    rw [List.length_cons] at start first
    rw [room.claim_toNat]
    omega
  times := by
    intro later member
    have late := room.times later (List.mem_cons_of_mem _ member)
    rw [List.length_cons] at late
    omega

end Claims

variable {last : UInt64} {times : List UInt64}

/-- Each id is what the calls so far force upon it, by induction on the times. -/
theorem map_toNat_claimAll (room : Room last times)
    : (claimAll last times).1.map UInt64.toNat
      = (List.range times.length).map (forced last.toNat (times.map UInt64.toNat)) := by
  induction times generalizing last with
  | nil => rfl
  | cons now more ih =>
      simp only [claimAll, List.map_cons, List.length_cons, List.range_succ_eq_map, List.map_map,
        Function.comp_def, forced_zero, forced_succ, room.claim_toNat, ih room.tail]

theorem snd_claimAll (last : UInt64) (times : List UInt64)
    : (claimAll last times).2 = (claimAll last times).1.getLastD last := by
  induction times generalizing last with
  | nil => rfl
  | cons now more ih => simp only [claimAll, List.getLastD_cons, ih]

/-- The ids increase from the start and keep up with the times, by induction on the times. -/
theorem keepsUp_claimAll (room : Room last times)
    : KeepsUp last.toNat (times.map UInt64.toNat) ((claimAll last times).1.map UInt64.toNat) := by
  induction times generalizing last with
  | nil => exact ⟨List.pairwise_singleton _ _, .nil⟩
  | cons now more ih =>
      obtain ⟨ordered, timely⟩ := ih room.tail
      have first := room.claim_toNat
      simp only [claimAll, List.map_cons]
      refine ⟨List.pairwise_cons.mpr ⟨?_, ordered⟩, .cons (by omega) timely⟩
      intro id member
      rcases List.mem_cons.mp member with rfl | member
      · omega
      · have later := (List.pairwise_cons.mp ordered).1 id member
        omega

/-- No ids that increase from the start and keep up with the times are less anywhere.
Witness: induction on the times; a greater first id leaves less room for the others.
-/
theorem claimAll_le_of_keepsUp (room : Room last times) {ids : List Nat}
    (keeps : KeepsUp last.toNat (times.map UInt64.toNat) ids)
    : List.Forall₂ (· ≤ ·) ((claimAll last times).1.map UInt64.toNat) ids := by
  induction times generalizing last ids with
  | nil =>
      cases keeps.timely
      exact .nil
  | cons now more ih =>
      obtain ⟨ordered, timely⟩ := keeps
      obtain ⟨id, others, reached, rest, rfl⟩ := List.forall₂_cons_left_iff.mp timely
      obtain ⟨above, ordered⟩ := List.pairwise_cons.mp ordered
      have least : (claim last now).toNat ≤ id := by
        have higher := above id List.mem_cons_self
        rw [room.claim_toNat]
        omega
      refine .cons least (ih room.tail ⟨List.pairwise_cons.mpr ⟨?_, ?_⟩, rest⟩)
      · intro other member
        exact Nat.lt_of_le_of_lt least ((List.pairwise_cons.mp ordered).1 other member)
      · exact (List.pairwise_cons.mp ordered).2

/-- Calls at any times, in whatever order these stand, get the ids that the start and the times so
far force upon them, and the last one is kept. These are the least increasing ids above the start
that keep up with the times. Witness: the maximum over the calls so far starts over behind each
call, with its id as the start.
-/
theorem claimAll_least (room : Room last times)
    : (claimAll last times).1.map UInt64.toNat
        = (List.range times.length).map (forced last.toNat (times.map UInt64.toNat))
      ∧ (claimAll last times).2 = (claimAll last times).1.getLastD last
      ∧ KeepsUp last.toNat (times.map UInt64.toNat) ((claimAll last times).1.map UInt64.toNat)
      ∧ ∀ ids,
          KeepsUp last.toNat (times.map UInt64.toNat) ids
          → List.Forall₂ (· ≤ ·) ((claimAll last times).1.map UInt64.toNat) ids := by
  refine ⟨map_toNat_claimAll room, snd_claimAll last times, keepsUp_claimAll room, ?_⟩
  intro ids keeps
  exact claimAll_le_of_keepsUp room keeps

/-- Four calls, with a clock that is behind the start and then goes back once. -/
theorem claimAll_least_backwards
    : Room 5 [3, 9, 2, 10]
      ∧ claimAll 5 [3, 9, 2, 10] = ([6, 9, 10, 11], 11)
      ∧ [6, 9, 10, 11] = (List.range 4).map (forced 5 [3, 9, 2, 10])
      ∧ ∀ ids, KeepsUp 5 [3, 9, 2, 10] ids → List.Forall₂ (· ≤ ·) [6, 9, 10, 11] ids := by
  have room : Room 5 [3, 9, 2, 10] := ⟨by decide, by simp⟩
  obtain ⟨closed, _, _, least⟩ := claimAll_least room
  exact ⟨room, rfl, closed, least⟩

end WorkflowLint.Ids
