import WorkflowLint.Ids.Interleaving

/-! What each caller has done, read off the moves of a run in any interleaving.
The counts that a caller was asked for, the times that it took, the ids that it stored and the
texts of its ids are those of the calls and batches that it has finished, and what it holds.
-/

namespace WorkflowLint.Ids

-----------------------------------------------------------------------------------------
-- What moves tell
-----------------------------------------------------------------------------------------

namespace Move

def request? : Move → Option Nat
  | .asked count => some count
  | _ => none

def reading? : Move → Option UInt64
  | .timed millis => some (reading millis)
  | _ => none

def store? : Move → Option UInt64
  | .stored id => some id
  | _ => none

/-- The time and the id of a call that returns. -/
def call? : Move → Option (UInt64 × UInt64)
  | .returned now id => some (now, id)
  | _ => none

/-- The id of a call that returns. -/
def answer? (move : Move) : Option UInt64 :=
  move.call?.map Prod.snd

def batch? : Move → Option (List String)
  | .delivered texts => some texts
  | _ => none

end Move

-----------------------------------------------------------------------------------------
-- What a caller holds
-----------------------------------------------------------------------------------------

namespace Phase

/-- The time that was taken for the id in hand. -/
def reading? : Phase → Option UInt64
  | .ready => none
  | .timed now | .loaded now _ | .swapped now _ => some now

/-- The last id as it was seen for the id in hand. -/
def seen? : Phase → Option UInt64
  | .ready | .timed _ => none
  | .loaded _ seen | .swapped _ seen => some seen

/-- The id in hand, once it is stored. -/
def stored? : Phase → Option UInt64
  | .swapped now previous => some (claim previous now)
  | _ => none

end Phase

namespace Caller

def phase : Caller → Phase
  | .idle => .ready
  | .claiming _ _ phase => phase

/-- The texts of the batch in hand. -/
def texts : Caller → List String
  | .idle => []
  | .claiming _ texts _ => texts

/-- How many ids the batch in hand is to have. -/
def request? : Caller → Option Nat
  | .idle => none
  | .claiming left texts _ => some (texts.length + left)

end Caller

-----------------------------------------------------------------------------------------
-- Ledgers
-----------------------------------------------------------------------------------------

/-- What went into a caller by some moves is what came out of it, and what it holds. -/
structure Ledger (moves : List Move) (caller : Caller) : Prop where
  requests
    : moves.filterMap Move.request?
      = (moves.filterMap Move.batch?).map List.length ++ caller.request?.toList
  readings
    : moves.filterMap Move.reading?
      = (moves.filterMap Move.call?).map Prod.fst ++ caller.phase.reading?.toList
  stores : moves.filterMap Move.store? = moves.filterMap Move.answer? ++ caller.phase.stored?.toList
  texts
    : (moves.filterMap Move.answer?).map text
      = (moves.filterMap Move.batch?).flatten ++ caller.texts

theorem Ledger.idle : Ledger [] .idle :=
  ⟨rfl, rfl, rfl, rfl⟩

/-- A move keeps the ledger of its caller.
Witness: in each equation, one case for each kind of move.
-/
theorem Ledger.turn {moves : List Move} {caller after : Caller} {move : Move} {last next : UInt64}
    (ledger : Ledger moves caller) (turn : Turn last caller move next after)
    : Ledger (moves ++ [move]) after := by
  have grown {α : Type} (told : Move → Option α)
      : (moves ++ [move]).filterMap told = moves.filterMap told ++ (told move).toList := by
    rw [List.filterMap_append]
    cases found : told move <;> simp [found]
  constructor
  · rw [grown, grown, ledger.requests, List.map_append]
    cases turn <;> simp [Move.request?, Move.batch?, Caller.request?]
    case answer => omega
  · rw [grown, grown, ledger.readings, List.map_append]
    cases turn <;> simp [Move.reading?, Move.call?, Caller.phase, Phase.reading?]
  · rw [grown, grown, ledger.stores]
    cases turn <;> simp [Move.store?, Move.answer?, Move.call?, Caller.phase, Phase.stored?]
  · rw [grown, grown, List.map_append, ledger.texts, List.flatten_append]
    cases turn <;> simp [Move.answer?, Move.call?, Move.batch?, Caller.texts]

section Runs

variable {ι : Type} [DecidableEq ι]

/-- The moves of one caller in a run. -/
def ofCaller (c : ι) (moves : List (ι × Move)) : List Move :=
  moves.filterMap (fun entry => if entry.1 = c then some entry.2 else none)

@[simp] theorem State.callers_after_self (s : State ι) (c : ι) (last : UInt64) (caller : Caller)
    : (s.after c last caller).callers c = caller :=
  if_pos rfl

theorem State.callers_after_of_ne (s : State ι) {c other : ι} (different : other ≠ c)
    (last : UInt64) (caller : Caller)
    : (s.after c last caller).callers other = s.callers other :=
  if_neg different

theorem mem_ofCaller {c : ι} {moves : List (ι × Move)} {move : Move}
    : move ∈ ofCaller c moves ↔ (c, move) ∈ moves := by
  simp [ofCaller]

/-- A run keeps the ledger of every caller, by induction on the moves.
Witness: a move enters the ledger of the caller that makes it, and the others do not change.
-/
theorem Run.ledger {last : UInt64} {moves : List (ι × Move)} {s : State ι}
    (run : Run (.fresh last) moves s) (c : ι)
    : Ledger (ofCaller c moves) (s.callers c) := by
  induction run with
  | rest => exact .idle
  | @step moves s d move next caller _ turn ih =>
      by_cases same : d = c
      · subst same
        have added : ofCaller d (moves ++ [(d, move)]) = ofCaller d moves ++ [move] := by
          simp [ofCaller]
        rw [added, State.callers_after_self]
        exact ih.turn turn
      · have kept : ofCaller c (moves ++ [(d, move)]) = ofCaller c moves := by
          simp [ofCaller, same]
        rw [kept, State.callers_after_of_ne s (Ne.symm same)]
        exact ih

end Runs

end WorkflowLint.Ids
