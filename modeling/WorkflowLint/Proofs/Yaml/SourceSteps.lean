import Mathlib.Data.List.Forall2
import WorkflowLint.Proofs.Yaml.SourceForms

/-! The machine gives the steps of a source for its tokens, and leaves its stack as it was. -/

namespace WorkflowLint.Yaml

open WorkflowLint.Json (Glyph Source Item Entry spelled)

/-- An event without an anchor and a tag stands for a step. -/
inductive Numbers : Event → Step → Prop where
  | scalar {text : List Char} {plain : Bool}
    : Numbers (.scalar .none text plain) (.scalar none (String.ofList text) plain)
  | sequenceStart : Numbers (.sequenceStart .none) (.sequenceStart none)
  | sequenceEnd : Numbers .sequenceEnd .sequenceEnd
  | mappingStart : Numbers (.mappingStart .none) (.mappingStart none)
  | mappingEnd : Numbers .mappingEnd .mappingEnd

namespace Machine

-----------------------------------------------------------------------------------------
-- Runs
-----------------------------------------------------------------------------------------

/-- An emission gives the event of a step, takes a token, and leads to a machine. -/
structure Gives (emission : Emission) (m : Machine) (s : Step) (next : Machine) : Prop where
  emitted : ∃ event mark, emission = .ok (event, mark, next) ∧ Numbers event s
  shorter : next.tokens.length < m.tokens.length

/-- A machine runs through steps to another one, with a token at least for each of them. -/
inductive Emits : Machine → List Step → Machine → Prop where
  | refl (m : Machine) : Emits m [] m
  | step {m next last : Machine} {top : Expectation} {below : List Expectation} {s : Step}
    {more : List Step} (stack : m.stack = top :: below)
    (gives : Gives (m.step top below) m s next) (rest : Emits next more last)
    : Emits m (s :: more) last

theorem Emits.trans {first second third : Machine} {steps more : List Step}
    (head : Emits first steps second) (tail : Emits second more third)
    : Emits first (steps ++ more) third := by
  induction head with
  | refl => exact tail
  | step stack gives _ ih => exact .step stack gives (ih tail)

/-- The run goes through the steps, and on with no less fuel than the tokens that are left take. -/
theorem Emits.run_eq {m last : Machine} {steps : List Step} (emits : Emits m steps last)
    (extra : Nat)
    : ∃ marked more,
        List.Forall₂ (fun e s => Numbers e.1 s) marked steps
        ∧ m.run (m.tokens.length + extra)
          = (marked ++ (last.run (last.tokens.length + more)).1,
            (last.run (last.tokens.length + more)).2) := by
  induction emits generalizing extra with
  | refl m => exact ⟨[], extra, .nil, rfl⟩
  | @step m next last top below s more stack gives _ ih =>
      obtain ⟨⟨event, mark, emitted, numbers⟩, shorter⟩ := gives
      -- A step takes one unit of fuel; other tokens that it takes leave fuel over.
      obtain ⟨spare, length⟩ := Nat.exists_eq_add_of_lt shorter
      obtain ⟨marked, left, all, ran⟩ := ih (spare + extra)
      refine ⟨(event, mark) :: marked, left, .cons numbers all, ?_⟩
      rw [length, show next.tokens.length + spare + 1 + extra
        = next.tokens.length + (spare + extra) + 1 by omega, run]
      simp only [stack, emitted, ran, List.cons_append]

-----------------------------------------------------------------------------------------
-- Nodes
-----------------------------------------------------------------------------------------

/-- The kinds of the tokens to come, and what is expected. -/
structure Faces (m : Machine) (ahead : List Token.Kind) (stack : List Expectation) : Prop where
  tokens : m.tokens.map Token.kind = ahead
  stack : m.stack = stack

section Facing

variable {m : Machine} {kind : Token.Kind} {ahead : List Token.Kind} {stack : List Expectation}

theorem Faces.peek (faces : Faces m (kind :: ahead) stack)
    : ∃ t, m.peek = .ok t ∧ t.kind = kind := by
  obtain ⟨t, more, tokens, same, _⟩ := List.map_eq_cons_iff.mp faces.tokens
  refine ⟨t, ?_, same⟩
  rw [Machine.peek, tokens]

theorem Faces.advance (faces : Faces m (kind :: ahead) stack) : Faces m.advance ahead stack := by
  refine ⟨?_, faces.stack⟩
  rw [Machine.advance, List.map_drop, faces.tokens]
  rfl

theorem Faces.goto (faces : Faces m ahead stack) (stack' : List Expectation)
    : Faces (m.goto stack') ahead stack' :=
  ⟨faces.tokens, rfl⟩

theorem Faces.length_advance (faces : Faces m (kind :: ahead) stack)
    : m.advance.tokens.length < m.tokens.length := by
  have length := congrArg List.length faces.tokens
  rw [List.length_map, List.length_cons] at length
  rw [Machine.advance, List.length_drop]
  omega

end Facing

/-- Tokens that stand between the nodes of flow collections. -/
def separators : List Token.Kind :=
  [.flowSequenceEnd, .flowMappingEnd, .flowEntry, .key, .value]

section Nodes

variable {m : Machine} {ahead : List Token.Kind} {stack : List Expectation}

/-- A scalar is a node by itself. -/
theorem Faces.node_scalar {text : List Char} {plain : Bool}
    (faces : Faces m (.scalar text plain :: ahead) stack) (block : Bool)
    : Gives (m.node block false) m (.scalar none (String.ofList text) plain) m.advance := by
  obtain ⟨t, peek, kind⟩ := faces.peek
  refine ⟨⟨.scalar .none text plain, t.start, ?_, .scalar⟩, faces.length_advance⟩
  simp [node, readPrelude, resolveTag, peek, kind, bind, Except.bind, Properties.none]

/-- An opening bracket starts a node of which the items are expected. -/
theorem Faces.node_sequence (faces : Faces m (.flowSequenceStart :: ahead) stack) (block : Bool)
    : ∃ next start,
        Gives (m.node block false) m (.sequenceStart none) next
        ∧ Faces next ahead (.flowItem start true :: stack) := by
  obtain ⟨t, peek, kind⟩ := faces.peek
  let next := m.advance.goto (.flowItem t.start true :: stack)
  have there : Faces next ahead next.stack := faces.advance.goto _
  refine ⟨next, t.start, ⟨⟨.sequenceStart .none, t.start, ?_, .sequenceStart⟩, ?_⟩, there⟩
  · simp [next, node, readPrelude, resolveTag, peek, kind, bind, Except.bind, Properties.none,
      faces.stack]
  · exact faces.length_advance

/-- An opening brace starts a node of which the entries are expected. -/
theorem Faces.node_mapping (faces : Faces m (.flowMappingStart :: ahead) stack) (block : Bool)
    : ∃ next start,
        Gives (m.node block false) m (.mappingStart none) next
        ∧ Faces next ahead (.flowKey start true :: stack) := by
  obtain ⟨t, peek, kind⟩ := faces.peek
  let next := m.advance.goto (.flowKey t.start true :: stack)
  have there : Faces next ahead next.stack := faces.advance.goto _
  refine ⟨next, t.start, ⟨⟨.mappingStart .none, t.start, ?_, .mappingStart⟩, ?_⟩, there⟩
  · simp [next, node, readPrelude, resolveTag, peek, kind, bind, Except.bind, Properties.none,
      faces.stack]
  · exact faces.length_advance

end Nodes

/-- For the tokens of a source the machine gives its steps and expects again what it did before. -/
def Nodes (source : Source) : Prop :=
  ∀ (block : Bool) {m : Machine} {ahead : List Token.Kind} {stack : List Expectation},
    Faces m (kindsOf source ++ ahead) stack
    → ∃ s more next last,
        stepsOf source = s :: more
        ∧ Gives (m.node block false) m s next
        ∧ Emits next more last
        ∧ Faces last ahead stack

/-- Where a node is expected, a source is run through. -/
theorem Nodes.emits {source : Source} (nodes : Nodes source) {m m' : Machine} {top : Expectation}
    {ahead : List Token.Kind} {stack below : List Expectation} {block : Bool}
    (expected : m.stack = top :: below)
    (step : m.step top below = m'.node block false)
    (faces : Faces m' (kindsOf source ++ ahead) stack)
    (within : m'.tokens.length ≤ m.tokens.length)
    : ∃ last, Emits m (stepsOf source) last ∧ Faces last ahead stack := by
  obtain ⟨s, more, next, last, same, ⟨emitted, shorter⟩, rest, there⟩ := nodes block faces
  refine ⟨last, ?_, there⟩
  rw [same]
  exact .step expected ⟨step ▸ emitted, Nat.lt_of_lt_of_le shorter within⟩ rest

/-- Before an item or an entry, or the end, the comma is passed over that has to stand there. -/
def Skips (m : Machine) (first : Bool) (closing : Token.Kind) (next : Machine) : Prop :=
  ∀ problem activity start, m.skipComma first closing problem activity start = .ok next

section Steps

variable {m next : Machine} {kind closing : Token.Kind} {ahead : List Token.Kind}
  {stack below : List Expectation} {start : Mark} {first : Bool}

theorem Faces.skips_first (faces : Faces m (kind :: ahead) stack) : Skips m true closing m := by
  intro problem activity start
  obtain ⟨t, peek, _⟩ := faces.peek
  simp [skipComma, peek, bind, Except.bind]

theorem Faces.skips_closing (faces : Faces m (closing :: ahead) stack)
    : Skips m first closing m := by
  intro problem activity start
  obtain ⟨t, peek, same⟩ := faces.peek
  simp [skipComma, peek, same, bind, Except.bind]

theorem Faces.skips_comma (faces : Faces m (.flowEntry :: ahead) stack)
    (other : closing ≠ .flowEntry)
    : Skips m false closing m.advance := by
  intro problem activity start
  obtain ⟨t, peek, comma⟩ := faces.peek
  simp [skipComma, peek, comma, other.symm, bind, Except.bind]

/-- An item of a list is a node. -/
theorem Skips.item (skips : Skips m first .flowSequenceEnd next)
    (faces : Faces next (kind :: ahead) stack) (ordinary : kind ∉ separators)
    : m.step (.flowItem start first) below
      = (next.goto (.flowItem start false :: below)).node false false := by
  obtain ⟨t, peek, rfl⟩ := faces.peek
  simp only [step, flowItem, skips _ _ _, peek, bind, Except.bind]
  split
  case h_1 same => exact absurd (same ▸ by decide) ordinary
  case h_2 same => exact absurd (same ▸ by decide) ordinary
  case h_3 => rfl

/-- The closing bracket ends a list. -/
theorem Faces.endOfList (faces : Faces m (.flowSequenceEnd :: ahead) stack)
    : Gives (m.step (.flowItem start first) below) m .sequenceEnd (m.advance.goto below) := by
  obtain ⟨t, peek, same⟩ := faces.peek
  refine ⟨⟨.sequenceEnd, t.start, ?_, .sequenceEnd⟩, faces.length_advance⟩
  simp only [step, flowItem, faces.skips_closing _ _ _, peek, same, bind, Except.bind]
  rfl

/-- A key of a map is a scalar. -/
theorem Skips.key {text : List Char} (skips : Skips m first .flowMappingEnd next) (start : Mark)
    (below : List Expectation)
    (faces : Faces next (.key :: .scalar text false :: ahead) stack)
    (within : next.tokens.length ≤ m.tokens.length)
    : ∃ last,
        Gives (m.step (.flowKey start first) below) m (.scalar none (String.ofList text) false) last
        ∧ Faces last ahead (.flowValue start :: below) := by
  obtain ⟨t, peek, key⟩ := faces.peek
  have faces' := faces.advance.goto (.flowValue start :: below)
  obtain ⟨u, peek', scalar⟩ := faces'.peek
  obtain ⟨⟨event, mark, emitted, numbers⟩, shorter⟩ := faces'.node_scalar false
  refine ⟨_, ⟨⟨event, mark, ?_, numbers⟩, ?_⟩, faces'.advance⟩
  · rw [← emitted]
    simp [step, flowKey, skips _ _ _, peek, key, nodeUnlessHere, nodeUnless, peek', scalar, bind,
      Except.bind]
  · have token : next.advance.tokens.length < next.tokens.length := faces.length_advance
    exact Nat.lt_trans shorter (Nat.lt_of_lt_of_le token within)

/-- The closing brace ends a map. -/
theorem Faces.endOfMap (faces : Faces m (.flowMappingEnd :: ahead) stack)
    : Gives (m.step (.flowKey start first) below) m .mappingEnd (m.advance.goto below) := by
  obtain ⟨t, peek, same⟩ := faces.peek
  refine ⟨⟨.mappingEnd, t.start, ?_, .mappingEnd⟩, faces.length_advance⟩
  simp only [step, flowKey, faces.skips_closing _ _ _, peek, same, bind, Except.bind]

/-- The value of a map behind its colon is a node. -/
theorem Faces.value (faces : Faces m (.value :: kind :: ahead) stack)
    (ordinary : kind ∉ separators)
    : m.step (.flowValue start) below
      = (m.advance.goto (.flowKey start false :: below)).node false false := by
  obtain ⟨t, peek, colon⟩ := faces.peek
  obtain ⟨u, peek', rfl⟩ := (faces.advance.goto (.flowKey start false :: below)).peek
  have present : u.kind ∉ [Token.Kind.flowEntry, .flowMappingEnd] := fun member =>
    ordinary ((by decide : [Token.Kind.flowEntry, .flowMappingEnd] ⊆ separators) member)
  have behind
      : (m.goto (.flowKey start false :: below)).advance
        = m.advance.goto (.flowKey start false :: below) :=
    rfl
  simp only [step, flowValue, peek, colon, behind, nodeUnlessHere, nodeUnless, peek', present,
    if_false, bind, Except.bind]

end Steps

-----------------------------------------------------------------------------------------
-- Sources
-----------------------------------------------------------------------------------------

/-- No separator starts a source. -/
theorem kinds_eq_cons (source : Source)
    : ∃ kind more, kindsOf source = kind :: more ∧ kind ∉ separators := by
  cases source <;> exact ⟨_, _, rfl, by simp [separators]⟩

section Collections

variable {m : Machine} {ahead : List Token.Kind} {stack below : List Expectation} {start : Mark}
  {first : Bool}

/-- A step that leads back to a stack. -/
theorem Gives.emits {m next : Machine} {s : Step} {top : Expectation}
    (gives : Gives (m.step top below) m s next) (expected : m.stack = top :: below)
    : Emits m [s] next :=
  .step expected gives (.refl next)

/-- An item is run through where it may stand. -/
theorem Nodes.item {source : Source} (nodes : Nodes source) {m next : Machine}
    (expected : m.stack = .flowItem start first :: below)
    (skips : Skips m first .flowSequenceEnd next)
    (faces : Faces next (kindsOf source ++ ahead) stack)
    (within : next.tokens.length ≤ m.tokens.length)
    : ∃ last,
        Emits m (stepsOf source) last ∧ Faces last ahead (.flowItem start false :: below) := by
  obtain ⟨kind, more, same, ordinary⟩ := kinds_eq_cons source
  have ahead := faces
  rw [same, List.cons_append] at ahead
  exact nodes.emits expected (skips.item ahead ordinary) (faces.goto _) within

/-- A value is run through behind its colon. -/
theorem Nodes.value {source : Source} (nodes : Nodes source)
    (faces : Faces m (.value :: (kindsOf source ++ ahead)) (.flowValue start :: below))
    : ∃ last,
        Emits m (stepsOf source) last ∧ Faces last ahead (.flowKey start false :: below) := by
  obtain ⟨kind, more, same, ordinary⟩ := kinds_eq_cons source
  have ahead := faces
  rw [same, List.cons_append] at ahead
  exact nodes.emits faces.stack (ahead.value ordinary) (faces.advance.goto _)
    (Nat.le_of_lt faces.length_advance)

/-- An entry is run through where it may stand. -/
theorem Nodes.field {source : Source} (nodes : Nodes source) {m next : Machine} {key : List Glyph}
    (expected : m.stack = .flowKey start first :: below)
    (skips : Skips m first .flowMappingEnd next)
    (faces : Faces next (keyKinds key ++ (kindsOf source ++ ahead)) stack)
    (within : next.tokens.length ≤ m.tokens.length)
    : ∃ last,
        Emits m (keyStep key :: stepsOf source) last
        ∧ Faces last ahead (.flowKey start false :: below) := by
  obtain ⟨middle, gives, there⟩ := skips.key start below faces within
  obtain ⟨last, emits, there⟩ := nodes.value there
  exact ⟨last, (gives.emits expected).trans emits, there⟩

/-- Further items are run through, and the closing bracket. -/
theorem emits_items {more : List (Item Source)} (tail : ∀ item ∈ more, Nodes item.value)
    (faces : Faces m (itemKinds more ++ .flowSequenceEnd :: ahead)
      (.flowItem start false :: below))
    : ∃ last, Emits m (itemSteps more ++ [.sequenceEnd]) last ∧ Faces last ahead below := by
  induction more generalizing m with
  | nil =>
      exact ⟨_, (Faces.endOfList faces).emits faces.stack, faces.advance.goto below⟩
  | cons item more ih =>
      obtain ⟨before, v, after⟩ := item
      rw [itemKinds, List.cons_append, List.append_assoc] at faces
      obtain ⟨middle, emits, there⟩ := (tail _ List.mem_cons_self).item faces.stack
        (faces.skips_comma nofun) faces.advance (Nat.le_of_lt faces.length_advance)
      obtain ⟨last, emits', there⟩ :=
        ih (fun item member => tail item (List.mem_cons_of_mem _ member)) there
      refine ⟨last, ?_, there⟩
      rw [itemSteps, List.append_assoc]
      exact emits.trans emits'

/-- Further entries are run through, and the closing brace. -/
theorem emits_fields {more : List (Entry Source)} (tail : ∀ field ∈ more, Nodes field.value)
    (faces : Faces m (fieldKinds more ++ .flowMappingEnd :: ahead)
      (.flowKey start false :: below))
    : ∃ last, Emits m (fieldSteps more ++ [.mappingEnd]) last ∧ Faces last ahead below := by
  induction more generalizing m with
  | nil =>
      exact ⟨_, (Faces.endOfMap faces).emits faces.stack, faces.advance.goto below⟩
  | cons field more ih =>
      obtain ⟨before, key, toColon, fromColon, v, after⟩ := field
      rw [fieldKinds, List.cons_append, List.append_assoc, List.append_assoc] at faces
      obtain ⟨middle, emits, there⟩ := (tail _ List.mem_cons_self).field faces.stack
        (faces.skips_comma nofun) faces.advance (Nat.le_of_lt faces.length_advance)
      obtain ⟨last, emits', there⟩ :=
        ih (fun field member => tail field (List.mem_cons_of_mem _ member)) there
      refine ⟨last, ?_, there⟩
      rw [fieldSteps, List.cons_append, List.append_assoc]
      exact emits.trans emits'

end Collections

theorem nodes_scalar {source : Source} {text : List Char} {plain : Bool}
    (token : kindsOf source = [.scalar text plain])
    (step : stepsOf source = [.scalar none (String.ofList text) plain])
    : Nodes source := by
  intro block m ahead stack faces
  rw [token] at faces
  exact ⟨_, _, _, _, step, faces.node_scalar block, .refl _, faces.advance⟩

/-- A source stands behind an opening mark without a comma. -/
theorem Faces.skips_source {m : Machine} {source : Source} {closing : Token.Kind}
    {ahead : List Token.Kind} {stack : List Expectation}
    (faces : Faces m (kindsOf source ++ ahead) stack)
    : Skips m true closing m := by
  obtain ⟨kind, more, same, _⟩ := kinds_eq_cons source
  rw [same, List.cons_append] at faces
  exact faces.skips_first

theorem nodes_emptyList (inside : Json.Space) : Nodes (.emptyList inside) := by
  intro block m ahead stack faces
  obtain ⟨next, start, gives, there⟩ := Faces.node_sequence faces block
  exact ⟨_, _, next, _, rfl, gives, there.endOfList.emits there.stack, there.advance.goto stack⟩

theorem nodes_list {first : Item Source} {more : List (Item Source)} (head : Nodes first.value)
    (tail : ∀ item ∈ more, Nodes item.value)
    : Nodes (.list first more) := by
  intro block m ahead stack faces
  obtain ⟨before, v, after⟩ := first
  simp only [kindsOf, List.cons_append, List.append_assoc] at faces
  obtain ⟨next, start, gives, there⟩ := faces.node_sequence block
  obtain ⟨middle, emits, there⟩ :=
    head.item there.stack there.skips_source there (Nat.le_refl _)
  obtain ⟨last, emits', there⟩ := emits_items tail there
  exact ⟨_, _, next, last, rfl, gives, emits.trans emits', there⟩

theorem nodes_emptyMap (inside : Json.Space) : Nodes (.emptyMap inside) := by
  intro block m ahead stack faces
  obtain ⟨next, start, gives, there⟩ := Faces.node_mapping faces block
  exact ⟨_, _, next, _, rfl, gives, there.endOfMap.emits there.stack, there.advance.goto stack⟩

theorem nodes_map {first : Entry Source} {more : List (Entry Source)} (head : Nodes first.value)
    (tail : ∀ field ∈ more, Nodes field.value)
    : Nodes (.map first more) := by
  intro block m ahead stack faces
  obtain ⟨before, key, toColon, fromColon, v, after⟩ := first
  simp only [kindsOf, List.cons_append, List.append_assoc] at faces
  obtain ⟨next, start, gives, there⟩ := faces.node_mapping block
  obtain ⟨middle, emits, there⟩ :=
    head.field there.stack there.skips_first there (Nat.le_refl _)
  obtain ⟨last, emits', there⟩ := emits_fields tail there
  exact ⟨_, _, next, last, rfl, gives, emits.trans emits', there⟩

mutual
/-- Witness: recursion on the source, through the lists of its parts. -/
theorem nodes : ∀ source : Source, Nodes source
  | .null | .bool _ | .int _ | .string _ => nodes_scalar rfl rfl
  | .emptyList inside => nodes_emptyList inside
  | .list ⟨_, v, _⟩ more => nodes_list (nodes v) (nodes_items more)
  | .emptyMap inside => nodes_emptyMap inside
  | .map ⟨_, _, _, _, v, _⟩ more => nodes_map (nodes v) (nodes_fields more)

theorem nodes_items : ∀ more : List (Item Source), ∀ item ∈ more, Nodes item.value
  | [] => nofun
  | ⟨_, v, _⟩ :: more => List.forall_mem_cons.mpr ⟨nodes v, nodes_items more⟩

theorem nodes_fields : ∀ more : List (Entry Source), ∀ field ∈ more, Nodes field.value
  | [] => nofun
  | ⟨_, _, _, _, v, _⟩ :: more => List.forall_mem_cons.mpr ⟨nodes v, nodes_fields more⟩
end

end Machine
-----------------------------------------------------------------------------------------
-- Documents
-----------------------------------------------------------------------------------------

/-- Events without anchors and tags are numbered as the steps that they stand for. -/
theorem resolveAliases_eq {marked : List (Event × Mark)} {steps : List Step}
    (all : List.Forall₂ (fun e s => Numbers e.1 s) marked steps) (position : Nat) (a : Anchors)
    : ∃ numbered,
        resolveAliases position a marked = (numbered, a, none)
        ∧ numbered.map Prod.fst = steps := by
  induction all generalizing position with
  | nil => exact ⟨[], rfl, rfl⟩
  | @cons e s marked steps numbers _ ih =>
      obtain ⟨event, mark⟩ := e
      obtain ⟨numbered, resolved, same⟩ := ih (position + 1)
      refine ⟨(s, mark) :: numbered, ?_, congrArg (s :: ·) same⟩
      have properties : a.declare position Properties.none.anchor = a := rfl
      cases numbers <;> simp only [resolveAliases, properties, resolved] <;> rfl

/-- A whole document with certain steps and nothing behind it. -/
structure Document.Holds (d : Document) (steps : List Step) : Prop where
  steps : d.steps.toList.map Prod.fst = steps
  failure : d.failure = none
  last : d.last = true

/-- A stream with a source in it starts like a document without a mark. -/
theorem Machine.start?_source {source : Source} {tokens : List Token} {ahead : List Token.Kind}
    (kinds : tokens.map Token.kind = kindsOf source ++ ahead)
    : (Machine.mk tokens none [] []).start?
      = .ok (some ⟨tokens, none, defaultHandles, [.bareNode]⟩) := by
  have faces : Faces ⟨tokens, none, [], []⟩ (kindsOf source ++ ahead) [] := ⟨kinds, rfl⟩
  cases source <;> obtain ⟨t, peek, same⟩ := Faces.peek faces <;>
    simp only [start?, peek, same, bind, Except.bind] <;> rfl

/-- Where nothing is expected, a run is over. -/
theorem Machine.run_finished {m : Machine} (finished : m.stack = []) (fuel : Nat)
    : m.run fuel = ([], .ok m) := by
  cases fuel with
  | zero => rfl
  | succ fuel => rw [run, finished]

/-- Where only the end of the stream is left, no other document follows. -/
theorem Machine.Faces.isOver {m : Machine} {stack : List Expectation}
    (faces : Faces m [.streamEnd] stack)
    : m.isOver = true := by
  obtain ⟨t, more, tokens, same, _⟩ := List.map_eq_cons_iff.mp faces.tokens
  simp [Machine.isOver, tokens, same]

/-- The tokens of a source make up a document with its steps. -/
theorem Document.ofTokens_holds {source : Source} {tokens : List Token}
    (kinds : tokens.map Token.kind = kindsOf source ++ [.streamEnd])
    : (Document.ofTokens tokens none).Holds (stepsOf source) := by
  let m : Machine := ⟨tokens, none, Machine.defaultHandles, [.bareNode]⟩
  have faces : Machine.Faces m (kindsOf source ++ [.streamEnd]) [.bareNode] := ⟨kinds, rfl⟩
  have step : m.step .bareNode [] = (m.goto []).node true false := rfl
  obtain ⟨last, emits, there⟩ :=
    (Machine.nodes source).emits faces.stack step (faces.goto []) (Nat.le_refl _)
  obtain ⟨marked, more, all, ran⟩ := emits.run_eq (3 * tokens.length + 8)
  obtain ⟨numbered, resolved, same⟩ := resolveAliases_eq all 0 ⟨[], []⟩
  rw [Machine.run_finished there.stack, List.append_nil] at ran
  have fuel : 4 * tokens.length + 8 = m.tokens.length + (3 * tokens.length + 8) := by
    show _ = tokens.length + _
    omega
  obtain ⟨t, peek, _⟩ := there.peek
  have whole : Document.ofTokens tokens none = ⟨numbered.toArray, [], none, true⟩ := by
    rw [Document.ofTokens, Machine.start?_source kinds]
    simp only [fuel]
    rw [ran]
    simp only [complete, peek, resolved, there.isOver]
  rw [whole]
  exact ⟨same, rfl, rfl⟩

end WorkflowLint.Yaml
