import Mathlib.Data.List.Perm.Basic
import WorkflowLint.Proofs.Structure.PlaceFindings

/-! How often ids are missing and repeated. The texts of all truthy ids are, up to order, the
distinct ones together with one for each report of a repeated id.
-/

namespace WorkflowLint

namespace Finding

/-- The finding without the index that it mentions. -/
def unplaced : Finding → Finding
  | .idMissing _ => .idMissing 0
  | .endpointMissing _ endpoint => .endpointMissing 0 endpoint
  | f => f

@[simp] theorem unplaced_severity (f : Finding) : f.unplaced.severity = f.severity := by
  cases f <;> rfl

@[simp] theorem unplaced_code (f : Finding) : f.unplaced.code = f.code := by
  cases f <;> rfl

/-- Only two codes belong to findings that mention an index. -/
theorem unplaced_eq_self {f : Finding} (id : f.code ≠ "G001") (endpoint : f.code ≠ "E001")
    : f.unplaced = f := by
  cases f with
  | idMissing index => exact absurd rfl id
  | endpointMissing index ends => exact absurd rfl endpoint
  | _ => rfl

end Finding

namespace StructureRules

open WorkflowLint.Graph

/-- How many nodes have no truthy id. -/
def countWithoutId (nodes : List Value) : Nat :=
  nodes.countP (fun node => nodeId? node = none)

theorem countWithoutId_cons (node : Value) (more : List Value)
    : countWithoutId (node :: more)
      = countWithoutId more + if nodeId? node = none then 1 else 0 := by
  simp [countWithoutId, List.countP_cons]

/-- The id texts of the nodes behind a prefix that some node before them has, in their order. -/
def repeatedAfter (earlier : List Value) : List Value → List String
  | [] => []
  | node :: more =>
      match nodeId? node with
      | none => repeatedAfter (earlier ++ [node]) more
      | some id =>
          if id ∈ declaredIds earlier then id :: repeatedAfter (earlier ++ [node]) more
          else repeatedAfter (earlier ++ [node]) more

def repeatedIds (nodes : List Value) : List String :=
  repeatedAfter [] nodes

/-- The truthy ids behind a prefix are repeated or declared there for the first time.
Witness: induction on the nodes that are left; each moves one text to either side.
-/
theorem repeatedAfter_append_declaredIds_perm (earlier nodes : List Value)
    : (repeatedAfter earlier nodes ++ declaredIds (earlier ++ nodes)).Perm
        (declaredIds earlier ++ nodes.filterMap nodeId?) := by
  induction nodes generalizing earlier with
  | nil => simp [repeatedAfter]
  | cons node more ih =>
      have extended := ih (earlier ++ [node])
      rw [List.append_assoc, List.singleton_append] at extended
      rw [repeatedAfter, List.filterMap_cons]
      cases ident : nodeId? node with
      | none => simpa only [declaredIds_concat_none ident] using extended
      | some id =>
          rw [declaredIds_concat_some ident] at extended
          dsimp only
          by_cases known : id ∈ declaredIds earlier
          · rw [if_pos known] at extended
            rw [if_pos known, List.cons_append]
            exact (extended.cons id).trans List.perm_middle.symm
          · rw [if_neg known, List.append_assoc, List.singleton_append] at extended
            rwa [if_neg known]

/-- The truthy ids are, up to order, the repeated and the distinct ones. -/
theorem repeatedIds_append_declaredIds_perm (nodes : List Value)
    : (repeatedIds nodes ++ declaredIds nodes).Perm (nodes.filterMap nodeId?) :=
  repeatedAfter_append_declaredIds_perm [] nodes

/-- What the nodes behind a prefix add because of their places: one finding for each missing id
and one for each repeated one, up to indices and order.
-/
theorem placeFindings_perm (earlier nodes : List Value)
    : (((nodes.zipIdx earlier.length).flatMap
          (fun entry =>
            placeFindings ((earlier ++ nodes).take entry.2) entry.2 entry.1)).map
          Finding.unplaced).Perm
        (List.replicate (countWithoutId nodes) (.idMissing 0)
          ++ (repeatedAfter earlier nodes).map .idRepeated) := by
  induction nodes generalizing earlier with
  | nil => simp [repeatedAfter, countWithoutId]
  | cons node more ih =>
      have extended := ih (earlier ++ [node])
      rw [List.length_append, List.length_singleton, List.append_assoc,
        List.singleton_append] at extended
      rw [List.zipIdx_cons, List.flatMap_cons, List.map_append, List.take_left', repeatedAfter,
        placeFindings, countWithoutId_cons]
      · cases ident : nodeId? node with
        | none =>
            simp only [List.map_cons, List.map_nil, Finding.unplaced, if_true, List.replicate_succ,
              List.cons_append, List.nil_append]
            exact extended.cons _
        | some id =>
            simp only [reduceCtorEq, if_false, Nat.add_zero]
            by_cases known : id ∈ declaredIds earlier
            · simp only [repeatFindings, censusOf, known, if_true, List.map_cons, List.map_nil,
                Finding.unplaced, List.cons_append, List.nil_append]
              exact (extended.cons _).trans List.perm_middle.symm
            · simpa only [repeatFindings, censusOf, known, if_false, List.map_nil,
                List.nil_append] using extended
      · rfl

/-- The walk over the nodes finds, up to indices and order, each missing id, each repeated one,
what the nodes add of their own, and what is missing on the whole.
-/
theorem nodesFindings_perm (options : Options) (nodes : List Value)
    : ((nodesFindings options nodes).2.map Finding.unplaced).Perm
        (List.replicate (countWithoutId nodes) (.idMissing 0)
          ++ (repeatedIds nodes).map .idRepeated
          ++ (nodes.flatMap (ownFindings options)).map Finding.unplaced
          ++ require (hasKind nodes .start) .noStart
          ++ require (hasKind nodes .end) .noEnd) := by
  have flags (holds : Bool) {f : Finding} (plain : f.unplaced = f)
      : (require holds f).map Finding.unplaced = require holds f := by
    cases holds <;> simp [require, plain]
  have own
      : nodes.zipIdx.flatMap (fun entry => ownFindings options entry.1)
        = nodes.flatMap (ownFindings options) := by
    rw [← List.flatMap_map Prod.fst (ownFindings options), List.zipIdx_map_fst]
  rw [nodesFindings_eq]
  simp only [findingsAt_eq, List.map_append, flags _ (f := .noStart) rfl,
    flags _ (f := .noEnd) rfl]
  refine List.Perm.append_right _ (List.Perm.append_right _ ?_)
  have parts := (List.flatMap_append_perm nodes.zipIdx
    (fun entry => placeFindings (nodes.take entry.2) entry.2 entry.1)
    (fun entry => ownFindings options entry.1)).symm.map Finding.unplaced
  rw [List.map_append, own] at parts
  exact parts.trans (List.Perm.append_right _ (placeFindings_perm [] nodes))

end StructureRules

end WorkflowLint
