import Mathlib.Algebra.Group.Nat.Defs
import Mathlib.Data.List.Nodup
import Mathlib.Data.List.Perm.Subperm
import WorkflowLint.Proofs.Ids.Ledgers

/-! Ids do not collide, however the moves of their callers interleave.
Every swap stores more than the last id, so the swaps are in the order of their ids. The last id has
room to grow: times are below `2 ^ 63`, and with a start below `2 ^ 63` it stays below `2 ^ 63` and
the number of swaps that have succeeded. A caller alone gets the ids that `claimAll` gives.
-/

namespace WorkflowLint.Ids

-----------------------------------------------------------------------------------------
-- One claim
-----------------------------------------------------------------------------------------

/-- A time has 63 bits. -/
theorem reading_lt (millis : Int64)
    : (reading millis).toNat < 2 ^ 63 := by
  have small := millis.toInt_lt
  rw [reading, UInt64.toNat_ofNat']
  omega

theorem le_claim (last now : UInt64)
    : now ≤ claim last now := by
  rw [UInt64.le_iff_toNat_le, claim, UInt64.toNat_max]
  exact Nat.le_max_left _ _

/-- Where the last id has room to grow, a claim is worked out without wrapping around. -/
theorem claim_toNat {last : UInt64} (room : last.toNat + 1 < 2 ^ 64) (now : UInt64)
    : (claim last now).toNat = max now.toNat (last.toNat + 1) := by
  have next : (last + 1).toNat = last.toNat + 1 := by
    rw [UInt64.toNat_add]
    exact Nat.mod_eq_of_lt room
  rw [claim, UInt64.toNat_max, next]

theorem lt_claim {last : UInt64} (room : last.toNat + 1 < 2 ^ 64) (now : UInt64)
    : last < claim last now := by
  rw [UInt64.lt_iff_toNat_lt, claim_toNat room]
  omega

/-- Ids with the same digits are the same. -/
theorem text_injective : Function.Injective text := by
  intro id other same
  have digits : Nat.toDigits 10 id.toNat = Nat.toDigits 10 other.toNat := by
    simpa [text] using congrArg String.toList same
  have number := congrArg (fun digits => Nat.ofDigitChars 10 digits 0) digits
  simp only [Nat.ofDigitChars_ten_toDigits] at number
  exact UInt64.toNat_inj.mp number

-----------------------------------------------------------------------------------------
-- One turn
-----------------------------------------------------------------------------------------

/-- A time is taken in the same move, or has been held before. -/
theorem Turn.reading?_after {last next now : UInt64} {caller after : Caller} {move : Move}
    (turn : Turn last caller move next after) (held : now ∈ after.phase.reading?)
    : now ∈ caller.phase.reading? ∨ ∃ millis, now = reading millis := by
  cases turn with
  | time millis => exact .inr ⟨millis, (Option.some.inj held).symm⟩
  | ask | answer | deliver => cases held
  | load | swap | fail => exact .inl held

/-- The last id was seen in the same move, or has been seen before. -/
theorem Turn.seen?_after {last next seen : UInt64} {caller after : Caller} {move : Move}
    (turn : Turn last caller move next after) (held : seen ∈ after.phase.seen?)
    : seen ∈ caller.phase.seen? ∨ seen = last := by
  cases turn with
  | load => exact .inr (Option.some.inj held).symm
  | ask | time | fail | answer | deliver => cases held
  | swap => exact .inl held

/-- Only a swap stores an id. It claims after the last one, for the time that is held. -/
theorem Turn.stores_or_keeps {last next : UInt64} {caller after : Caller} {move : Move}
    (turn : Turn last caller move next after)
    : (move.store? = none ∧ next = last)
      ∨ ∃ now ∈ caller.phase.reading?,
          move.store? = some (claim last now) ∧ next = claim last now := by
  cases turn with
  | swap => exact .inr ⟨_, rfl, rfl, rfl⟩
  | _ => exact .inl ⟨rfl, rfl⟩

/-- A call never returns less than its own time. -/
theorem Turn.call?_le {last next : UInt64} {caller after : Caller} {move : Move}
    {call : UInt64 × UInt64} (turn : Turn last caller move next after)
    (returns : call ∈ move.call?)
    : call.1 ≤ call.2 := by
  cases turn with
  | answer =>
      obtain rfl := Option.some.inj returns
      exact le_claim _ _
  | _ => cases returns

-----------------------------------------------------------------------------------------
-- The last id along a run
-----------------------------------------------------------------------------------------

section Runs

variable {ι : Type}

/-- What the moves of any caller tell, with the caller. -/
def log {α : Type} (told : Move → Option α) (moves : List (ι × Move)) : List (ι × α) :=
  moves.filterMap (fun entry => (told entry.2).map (fun fact => (entry.1, fact)))

/-- The ids in the order of the swaps that stored them. -/
def storedIds (moves : List (ι × Move)) : List UInt64 :=
  (log Move.store? moves).map Prod.snd

/-- The ids in the order in which calls returned them. -/
def returnedIds (moves : List (ι × Move)) : List UInt64 :=
  (log Move.answer? moves).map Prod.snd

/-- What the last id has been, one after the other. -/
def lastIds (start : UInt64) (moves : List (ι × Move)) : List UInt64 :=
  start :: storedIds moves

theorem storedIds_append (moves : List (ι × Move)) (c : ι) (move : Move)
    : storedIds (moves ++ [(c, move)]) = storedIds moves ++ move.store?.toList := by
  cases stores : move.store? <;> simp [storedIds, log, stores]

theorem lastIds_append (start : UInt64) (moves : List (ι × Move)) (c : ι) (move : Move)
    : lastIds start (moves ++ [(c, move)]) = lastIds start moves ++ move.store?.toList := by
  rw [lastIds, storedIds_append]
  rfl

/-- The last id has always grown, and not further than the number of swaps allows. -/
structure History (start : UInt64) (moves : List (ι × Move)) (last : UInt64) : Prop where
  held : last ∈ lastIds start moves
  bounded : ∀ id ∈ lastIds start moves, id ≤ last
  ordered : (lastIds start moves).Pairwise (· < ·)
  low : last.toNat < 2 ^ 63 + (storedIds moves).length

/-- No caller has seen more than the last id, nor taken a time that has more than 63 bits. -/
structure Holdings (s : State ι) : Prop where
  seen : ∀ c, ∀ seen ∈ (s.callers c).phase.seen?, seen ≤ s.last
  readings : ∀ c, ∀ now ∈ (s.callers c).phase.reading?, now.toNat < 2 ^ 63

section Histories

variable {start last : UInt64} {moves : List (ι × Move)} {c : ι} {move : Move}

theorem History.fresh (low : start.toNat < 2 ^ 63)
    : History start ([] : List (ι × Move)) start where
  held := List.mem_singleton.mpr rfl
  bounded := by simp [lastIds, storedIds, log]
  ordered := List.pairwise_singleton _ _
  low := by simpa [storedIds, log] using low

/-- With fewer than `2 ^ 63` swaps the last id can still grow. -/
theorem History.room (history : History start moves last)
    (few : (storedIds moves).length < 2 ^ 63)
    : last.toNat + 1 < 2 ^ 64 := by
  have low := history.low
  omega

theorem History.keep (history : History start moves last) (keeps : move.store? = none)
    : History start (moves ++ [(c, move)]) last := by
  have unchanged : storedIds (moves ++ [(c, move)]) = storedIds moves := by
    rw [storedIds_append, keeps]
    exact List.append_nil _
  have same : lastIds start (moves ++ [(c, move)]) = lastIds start moves :=
    congrArg (start :: ·) unchanged
  exact {
    held := same ▸ history.held
    bounded := same ▸ history.bounded
    ordered := same ▸ history.ordered
    low := unchanged ▸ history.low
  }

/-- A swap makes the last id greater than all before it, by one or up to the time. -/
theorem History.swap {now : UInt64} (history : History start moves last)
    (room : last.toNat + 1 < 2 ^ 64) (time : now.toNat < 2 ^ 63)
    (stores : move.store? = some (claim last now))
    : History start (moves ++ [(c, move)]) (claim last now) := by
  have greater := lt_claim room now
  have longer
      : lastIds start (moves ++ [(c, move)]) = lastIds start moves ++ [claim last now] := by
    rw [lastIds_append, stores]
    rfl
  constructor
  · rw [longer]
    exact List.mem_append_right _ (List.mem_singleton.mpr rfl)
  · rw [longer]
    intro id member
    rcases List.mem_append.mp member with old | new
    · exact UInt64.le_trans (history.bounded id old) (UInt64.le_of_lt greater)
    · exact UInt64.le_of_eq (List.mem_singleton.mp new)
  · rw [longer, List.pairwise_append]
    refine ⟨history.ordered, List.pairwise_singleton _ _, ?_⟩
    intro id old other new
    obtain rfl := List.mem_singleton.mp new
    exact UInt64.lt_of_le_of_lt (history.bounded id old) greater
  · have low := history.low
    rw [storedIds_append, stores, List.length_append, claim_toNat room now]
    simp only [Option.toList_some, List.length_singleton]
    omega

end Histories

theorem Holdings.fresh (start : UInt64)
    : Holdings (State.fresh start : State ι) where
  seen := by simp [State.fresh, Caller.phase, Phase.seen?]
  readings := by simp [State.fresh, Caller.phase, Phase.reading?]

variable [DecidableEq ι]

/-- What holds of every caller is to be shown again for the one that moves only. -/
theorem State.forall_callers_after (holds : Caller → Prop) {s : State ι} {c : ι} {caller : Caller}
    {last : UInt64} (before : ∀ d, holds (s.callers d)) (own : holds caller)
    : ∀ d, holds ((s.after c last caller).callers d) := by
  intro d
  by_cases same : d = c
  · subst same
    rw [State.callers_after_self]
    exact own
  · rw [State.callers_after_of_ne s same]
    exact before d

theorem Holdings.turn {next : UInt64} {s : State ι} {c : ι} {move : Move} {caller : Caller}
    (holdings : Holdings s) (turn : Turn s.last (s.callers c) move next caller)
    (grows : s.last ≤ next)
    : Holdings (s.after c next caller) := by
  constructor
  · apply State.forall_callers_after (fun caller => ∀ seen ∈ caller.phase.seen?, seen ≤ next)
    · intro d seen held
      exact UInt64.le_trans (holdings.seen d seen held) grows
    · intro seen held
      rcases turn.seen?_after held with before | rfl
      · exact UInt64.le_trans (holdings.seen c seen before) grows
      · exact grows
  · apply State.forall_callers_after
      (fun caller => ∀ now ∈ caller.phase.reading?, now.toNat < 2 ^ 63)
    · exact holdings.readings
    · intro now held
      rcases turn.reading?_after held with before | ⟨millis, rfl⟩
      · exact holdings.readings c now before
      · exact reading_lt millis

/-- A run with fewer than `2 ^ 63` swaps keeps the history and the holdings, by induction on the
moves. -/
theorem Run.history {start : UInt64} {moves : List (ι × Move)} {s : State ι}
    (low : start.toNat < 2 ^ 63) (run : Run (.fresh start) moves s)
    (few : (storedIds moves).length < 2 ^ 63)
    : History start moves s.last ∧ Holdings s := by
  induction run with
  | rest => exact ⟨.fresh low, .fresh start⟩
  | @step moves s c move next caller _ turn ih =>
      have fewer : (storedIds moves).length < 2 ^ 63 := by
        rw [storedIds_append, List.length_append] at few
        omega
      rcases ih fewer with ⟨history, holdings⟩
      have room := history.room fewer
      rcases turn.stores_or_keeps with ⟨keeps, rfl⟩ | ⟨now, own, stores, rfl⟩
      · exact ⟨history.keep keeps, holdings.turn turn (UInt64.le_refl _)⟩
      · exact ⟨history.swap room (holdings.readings c now own) stores,
          holdings.turn turn (UInt64.le_of_lt (lt_claim room now))⟩

/-- A call that has returned was never given less than its own time. -/
theorem Run.call_le {start : UInt64} {moves : List (ι × Move)} {s : State ι} {c : ι}
    {now id : UInt64} (run : Run (.fresh start) moves s) (returns : (c, .returned now id) ∈ moves)
    : now ≤ id := by
  induction run with
  | rest => cases returns
  | step _ turn ih =>
      rcases List.mem_append.mp returns with before | here
      · exact ih before
      · obtain ⟨rfl, rfl⟩ := Prod.mk.inj (List.mem_singleton.mp here)
        exact turn.call?_le rfl

-----------------------------------------------------------------------------------------
-- Stored and returned ids
-----------------------------------------------------------------------------------------

/-- What the moves of one caller tell is what the log has of it. -/
theorem filterMap_ofCaller {α : Type} (told : Move → Option α) (c : ι) (moves : List (ι × Move))
    : (ofCaller c moves).filterMap told
      = ((log told moves).filter (fun entry => entry.1 = c)).map Prod.snd := by
  unfold ofCaller log
  induction moves with
  | nil => rfl
  | cons entry more ih =>
      by_cases same : entry.1 = c <;> cases fact : told entry.2 <;> simp [same, fact, ih]

theorem count_log {α : Type} [DecidableEq α] (told : Move → Option α) (c : ι) (fact : α)
    (moves : List (ι × Move))
    : (log told moves).count (c, fact) = ((ofCaller c moves).filterMap told).count fact := by
  rw [filterMap_ofCaller, List.count, List.count, List.countP_map, List.countP_filter]
  congr 1
  funext entry
  rcases entry with ⟨d, other⟩
  simp [Bool.and_comm, Bool.beq_eq_decide_eq, Prod.ext_iff]

theorem ofCaller_sublist {α : Type} (told : Move → Option α) (c : ι) (moves : List (ι × Move))
    : ((ofCaller c moves).filterMap told).Sublist ((log told moves).map Prod.snd) := by
  rw [filterMap_ofCaller]
  exact List.filter_sublist.map Prod.snd

/-- No caller returns an id that it has not stored, nor returns it more often. -/
theorem Run.returned_subperm {start : UInt64} {moves : List (ι × Move)} {s : State ι}
    (run : Run (.fresh start) moves s)
    : (log Move.answer? moves).Subperm (log Move.store? moves) := by
  rw [List.subperm_ext_iff]
  rintro ⟨c, id⟩ _
  rw [count_log, count_log, (run.ledger c).stores]
  exact (List.sublist_append_left _ _).count_le id

/-- The ids of the calls are different, as they are stored by different swaps. -/
theorem Run.returnedIds_nodup {start : UInt64} {moves : List (ι × Move)} {s : State ι}
    (run : Run (.fresh start) moves s) (ordered : (storedIds moves).Pairwise (· < ·))
    : (returnedIds moves).Nodup := by
  obtain ⟨kept, same, part⟩ := run.returned_subperm
  have different : (kept.map Prod.snd).Nodup :=
    (ordered.sublist (part.map Prod.snd)).imp (fun less => UInt64.ne_of_lt less)
  exact (same.map Prod.snd).nodup_iff.mp different

/-- Each batch is the texts of ids in increasing order.
Witness: the batches of a caller follow each other in the texts of its calls, and its calls return
the ids in the order of its swaps.
-/
theorem Run.batch_increases {start : UInt64} {moves : List (ι × Move)} {s : State ι} {c : ι}
    {texts : List String} (run : Run (.fresh start) moves s)
    (ordered : (storedIds moves).Pairwise (· < ·)) (delivered : (c, .delivered texts) ∈ moves)
    : ∃ ids : List UInt64, texts = ids.map text ∧ ids.Pairwise (· < ·) := by
  have ledger := run.ledger c
  have own : ((ofCaller c moves).filterMap Move.answer?).Pairwise (· < ·) := by
    have stored := ordered.sublist (ofCaller_sublist Move.store? c moves)
    rw [ledger.stores] at stored
    exact (List.pairwise_append.mp stored).1
  have batch : texts ∈ (ofCaller c moves).filterMap Move.batch? :=
    List.mem_filterMap.mpr ⟨_, mem_ofCaller.mpr delivered, rfl⟩
  obtain ⟨before, behind, batches⟩ := List.append_of_mem batch
  have split := ledger.texts
  rw [batches, List.flatten_append, List.flatten_cons, List.append_assoc, List.append_assoc]
    at split
  obtain ⟨first, rest, all, _, later⟩ := List.map_eq_append_iff.mp split
  obtain ⟨ids, more, tail, here, _⟩ := List.map_eq_append_iff.mp later
  refine ⟨ids, here.symm, ?_⟩
  rw [all, tail] at own
  exact (List.pairwise_append.mp (List.pairwise_append.mp own).2.1).1

-----------------------------------------------------------------------------------------
-- No collisions
-----------------------------------------------------------------------------------------

/-- What callers can rely on, after the given moves. -/
structure CollisionFree (start : UInt64) (moves : List (ι × Move)) (finish : State ι) : Prop where
  /-- At no moment does anyone hold a last id that one cannot be added to. -/
  noOverflow
    : ∀ before middle,
        before <+: moves
        → Run (.fresh start) before middle
        → ∀ c, ∀ seen ∈ (middle.callers c).phase.seen?, seen.toNat + 1 < 2 ^ 64
  neverDecreases
    : ∀ before middle,
        before <+: moves → Run (.fresh start) before middle → middle.last ≤ finish.last
  /-- Each call returns what it stored for the time that it took, and each batch has as many texts
  as were asked for. -/
  ledgers : ∀ c, Ledger (ofCaller c moves) (finish.callers c)
  ordered : (storedIds moves).Pairwise (· < ·)
  distinct : (returnedIds moves).Nodup
  notBeforeClock : ∀ c now id, (c, .returned now id) ∈ moves → now ≤ id
  distinctTexts : ((returnedIds moves).map text).Nodup
  increasing
    : ∀ c texts,
        (c, .delivered texts) ∈ moves
        → ∃ ids : List UInt64, texts = ids.map text ∧ ids.Pairwise (· < ·)

/-- Ids do not collide in any interleaving of any callers, whatever the clock shows.
Witness: the last id is the greatest one so far at every moment, and has room to grow.
-/
theorem Run.collisionFree {start : UInt64} {moves : List (ι × Move)} {finish : State ι}
    (low : start.toNat < 2 ^ 63) (run : Run (.fresh start) moves finish)
    (few : (storedIds moves).length < 2 ^ 63)
    : CollisionFree start moves finish := by
  have history := (run.history low few).1
  have earlier {before : List (ι × Move)} (part : before <+: moves)
      : storedIds before <+: storedIds moves :=
    (part.filterMap _).map Prod.snd
  have past {before : List (ι × Move)} {middle : State ι} (part : before <+: moves)
      (reached : Run (.fresh start) before middle)
      : History start before middle.last ∧ Holdings middle ∧ middle.last.toNat + 1 < 2 ^ 64 := by
    have fewer := Nat.lt_of_le_of_lt (earlier part).length_le few
    rcases reached.history low fewer with ⟨history, holdings⟩
    exact ⟨history, holdings, history.room fewer⟩
  have ordered := (List.pairwise_cons.mp history.ordered).2
  have distinct := run.returnedIds_nodup ordered
  refine {
    noOverflow := ?noOverflow
    neverDecreases := ?neverDecreases
    ledgers := run.ledger
    ordered := ordered
    distinct := distinct
    notBeforeClock := fun c now id returns => run.call_le returns
    distinctTexts := distinct.map text_injective
    increasing := fun c texts delivered => run.batch_increases ordered delivered
  }
  case noOverflow =>
    intro before middle part reached c seen held
    rcases past part reached with ⟨_, holdings, room⟩
    have bound := UInt64.le_iff_toNat_le.mp (holdings.seen c seen held)
    omega
  case neverDecreases =>
    intro before middle part reached
    apply history.bounded
    rcases List.mem_cons.mp (past part reached).1.held with same | stored
    · exact same ▸ List.mem_cons_self
    · exact List.mem_cons_of_mem _ ((earlier part).subset stored)

/-- Two callers have loaded the same last id. One swap succeeds. The other fails and is made again,
by a caller whose clock is before the epoch, and its call returns first. -/
theorem Run.collisionFree_contended
    : ∃ (moves : List (Bool × Move)) (finish : State Bool),
        (5 : UInt64).toNat < 2 ^ 63
        ∧ Run (.fresh 5) moves finish
        ∧ storedIds moves = [7, 8]
        ∧ returnedIds moves = [8, 7]
        ∧ CollisionFree 5 moves finish := by
  have run : Run (.fresh 5) [] (State.fresh 5 : State Bool) := .rest
  replace run := run.step (c := true) (.ask 1)
  replace run := run.step (c := false) (.ask 1)
  replace run := run.step (c := false) (.time 7)
  replace run := run.step (c := true) (.time (-3))
  replace run := run.step (c := true) .load
  replace run := run.step (c := false) .load
  replace run := run.step (c := false) .swap
  replace run := run.step (c := true) .fail
  replace run := run.step (c := true) .load
  replace run := run.step (c := true) .swap
  replace run := run.step (c := true) .answer
  replace run := run.step (c := true) .deliver
  replace run := run.step (c := false) .answer
  replace run := run.step (c := false) .deliver
  refine ⟨_, _, by decide, run, rfl, rfl, ?_⟩
  exact Run.collisionFree (by decide) run (by decide)

-----------------------------------------------------------------------------------------
-- A caller alone
-----------------------------------------------------------------------------------------

theorem State.after_after (s : State ι) (c : ι) (last next : UInt64) (caller after : Caller)
    : (s.after c last caller).after c next after = s.after c next after := by
  simp only [State.after, State.mk.injEq, true_and]
  funext other
  split <;> rfl

/-- While nobody else moves, a caller that needs an id gets the one that is claimed at its time. -/
theorem Run.claims {start : UInt64} {moves : List (ι × Move)} {s : State ι} {c : ι} {left : Nat}
    {texts : List String} (run : Run (.fresh start) moves s)
    (here : s.callers c = .claiming (left + 1) texts .ready) (millis : Int64)
    : let id := claim s.last (reading millis)
      ∃ more,
        Run (.fresh start) (moves ++ more)
          (s.after c id (.claiming left (texts ++ [text id]) .ready)) := by
  have next {moves : List (ι × Move)} {last next : UInt64} {caller after : Caller} {move : Move}
      (run : Run (.fresh start) moves (s.after c last caller))
      (turn : Turn last caller move next after)
      : Run (.fresh start) (moves ++ [(c, move)]) (s.after c next after) := by
    rw [← State.after_after s c last next caller after]
    exact run.step ((State.callers_after_self s c last caller).symm ▸ turn)
  have timed := run.step (here ▸ Turn.time millis)
  have answered := next (next (next timed .load) .swap) .answer
  simp only [List.append_assoc] at answered
  exact ⟨_, answered⟩

/-- While nobody else moves, a caller gets the ids that are claimed one after the other at its
times, by induction on the times. -/
theorem Run.claims_all {start : UInt64} {c : ι} (times : List Int64) {moves : List (ι × Move)}
    {s : State ι} {texts : List String} (run : Run (.fresh start) moves s)
    (here : s.callers c = .claiming times.length texts .ready)
    : let (ids, last) := claimAll s.last (times.map reading)
      ∃ more finish,
        Run (.fresh start) (moves ++ more) finish
        ∧ finish.last = last
        ∧ finish.callers c = .claiming 0 (texts ++ ids.map text) .ready := by
  induction times generalizing moves s texts with
  | nil =>
      refine ⟨[], s, ?_, rfl, ?_⟩
      · rw [List.append_nil]
        exact run
      · simpa [claimAll] using here
  | cons millis times ih =>
      obtain ⟨first, claimed⟩ := run.claims here millis
      obtain ⟨more, finish, behind, last, texts⟩ := ih claimed (State.callers_after_self ..)
      rw [List.append_assoc] at behind texts
      exact ⟨first ++ more, finish, behind, last, texts⟩

/-- A batch is delivered to a caller that is alone, with the ids that are claimed at its times. -/
theorem exists_run_claimAll (start : UInt64) (c : ι) (times : List Int64)
    : ∃ moves finish,
        Run (.fresh start) moves finish
        ∧ finish.last = (claimAll start (times.map reading)).2
        ∧ (c, .delivered ((claimAll start (times.map reading)).1.map text)) ∈ moves := by
  have idle : Run (.fresh start) [] (State.fresh start : State ι) := .rest
  have asked := idle.step (c := c) (.ask times.length)
  obtain ⟨more, finish, run, last, texts⟩ := asked.claims_all times (State.callers_after_self ..)
  have delivered := run.step (texts ▸ Turn.deliver)
  exact ⟨_, _, delivered, last, List.mem_append_right _ (List.mem_singleton.mpr rfl)⟩

end Runs

end WorkflowLint.Ids
