import WorkflowLint.Ids

/-! Several callers that claim ids at the same time. They share the last id and change it by a swap
that succeeds only where the last id is still the one that was loaded. Each move of a caller is
atomic, and the moves of the callers interleave in any order.
-/

namespace WorkflowLint.Ids

/-- What a caller takes the time for, given the milliseconds of the system. Times before the epoch
count as the epoch. -/
def reading (millis : Int64) : UInt64 :=
  UInt64.ofNat millis.toInt.toNat

/-- How far a caller is with one id. -/
inductive Phase where
  | ready
  | timed (now : UInt64)
  /-- The last id was loaded, and a swap for it is being tried. -/
  | loaded (now seen : UInt64)
  /-- A swap has succeeded, and has handed back the last id that it replaced. -/
  | swapped (now previous : UInt64)

/-- A caller has been asked for nothing, or is claiming ids for a batch: how many more it needs, and
the texts of those it has. -/
inductive Caller where
  | idle
  | claiming (left : Nat) (texts : List String) (phase : Phase)

/-- What a caller does in one move. -/
inductive Move where
  /-- It is asked for a batch; a single id is a batch of one. -/
  | asked (count : Nat)
  | timed (millis : Int64)
  | loaded
  | stored (id : UInt64)
  /-- Its swap fails, because the last id has changed or for no reason. -/
  | failed
  | returned (now id : UInt64)
  | delivered (texts : List String)

/-- The moves of a caller, with the last id before and after. The id that is returned is worked out
once more from what the swap has handed back. -/
inductive Turn : UInt64 → Caller → Move → UInt64 → Caller → Prop where
  | ask {last : UInt64} (count : Nat)
    : Turn last .idle (.asked count) last (.claiming count [] .ready)
  | time {last : UInt64} {left : Nat} {texts : List String} (millis : Int64)
    : Turn last (.claiming (left + 1) texts .ready) (.timed millis)
        last (.claiming (left + 1) texts (.timed (reading millis)))
  | load {last now : UInt64} {left : Nat} {texts : List String}
    : Turn last (.claiming left texts (.timed now)) .loaded
        last (.claiming left texts (.loaded now last))
  | swap {now seen : UInt64} {left : Nat} {texts : List String}
    : Turn seen (.claiming left texts (.loaded now seen)) (.stored (claim seen now))
        (claim seen now) (.claiming left texts (.swapped now seen))
  | fail {last now seen : UInt64} {left : Nat} {texts : List String}
    : Turn last (.claiming left texts (.loaded now seen)) .failed
        last (.claiming left texts (.timed now))
  | answer {last now previous : UInt64} {left : Nat} {texts : List String}
    : Turn last (.claiming (left + 1) texts (.swapped now previous))
        (.returned now (claim previous now))
        last (.claiming left (texts ++ [text (claim previous now)]) .ready)
  | deliver {last : UInt64} {texts : List String}
    : Turn last (.claiming 0 texts .ready) (.delivered texts) last .idle

/-- The last id, and how far each caller is. -/
structure State (ι : Type) where
  last : UInt64
  callers : ι → Caller

/-- Nobody has been asked for anything. -/
def State.fresh {ι : Type} (last : UInt64) : State ι :=
  ⟨last, fun _ => .idle⟩

/-- The state after a move of one caller. -/
def State.after {ι : Type} [DecidableEq ι] (s : State ι) (c : ι) (last : UInt64) (caller : Caller)
    : State ι :=
  ⟨last, fun other => if other = c then caller else s.callers other⟩

/-- Moves of any callers in sequence, with who made them. -/
inductive Run {ι : Type} [DecidableEq ι] (start : State ι) : List (ι × Move) → State ι → Prop where
  | rest : Run start [] start
  | step {moves : List (ι × Move)} {s : State ι} {c : ι} {move : Move} {last : UInt64}
    {caller : Caller} (run : Run start moves s)
    (turn : Turn s.last (s.callers c) move last caller)
    : Run start (moves ++ [(c, move)]) (s.after c last caller)

end WorkflowLint.Ids
