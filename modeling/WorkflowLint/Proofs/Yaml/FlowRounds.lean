import WorkflowLint.Proofs.Yaml.PlainWords

/-! Rounds of the scanner inside flow collections. No block is open there, no candidate has to turn
into a key, and white space of any kind is passed over.
-/

namespace WorkflowLint.Yaml.Scanner

open WorkflowLint.Json (Space skipBlanks)

/-- Only flow collections are open, so many inside one another, and no key is required. -/
structure Flat (level : Nat) (s : Scanner) : Prop where
  indent : s.indent = -1
  outer : s.outerIndents = []
  running : s.ended = false
  level : s.outerCandidates.length = level
  inner : ∀ k ∈ s.candidate, k.required = false
  optional : ∀ candidate ∈ s.outerCandidates, ∀ k ∈ candidate, k.required = false

theorem Flat.inFlow {level : Nat} {s : Scanner} (flat : Flat level s)
    : s.inFlow = decide (0 < level) := by
  have count := flat.level
  subst count
  cases candidates : s.outerCandidates <;> simp [Scanner.inFlow, candidates]

-----------------------------------------------------------------------------------------
-- Candidates for which it is too late
-----------------------------------------------------------------------------------------

/-- The candidate unless it is too late for it. -/
def fresh (s : Scanner) (candidate : Option KeyCandidate) : Option KeyCandidate :=
  candidate.filter (fun k => !s.isStale k)

/-- The scanner without the candidates for which it is too late. -/
def freshened (s : Scanner) : Scanner :=
  { s with
    candidate := s.fresh s.candidate
    outerCandidates := s.outerCandidates.map s.fresh }

theorem mem_of_mem_fresh {s : Scanner} {candidate : Option KeyCandidate} {k : KeyCandidate}
    (member : k ∈ s.fresh candidate)
    : k ∈ candidate :=
  (Option.mem_filter_iff.mp member).1

theorem keepFresh_eq (s : Scanner) {candidate : Option KeyCandidate}
    (optional : ∀ k ∈ candidate, k.required = false)
    : s.keepFresh candidate = .ok (s.fresh candidate) := by
  cases candidate with
  | none => rfl
  | some k =>
      rw [keepFresh, optional k rfl, fresh, Option.filter_some]
      cases s.isStale k <;> rfl

/-- A function that succeeds on all of a list succeeds on the list. -/
theorem mapM_eq_map {α β ε : Type} {f : α → Except ε β} {g : α → β} {xs : List α}
    (succeeds : ∀ x ∈ xs, f x = .ok (g x))
    : xs.mapM f = .ok (xs.map g) := by
  induction xs with
  | nil => rfl
  | cons x xs ih =>
      rw [List.mapM_cons, succeeds x List.mem_cons_self,
        ih (fun x member => succeeds x (List.mem_cons_of_mem _ member))]
      rfl

/-- Where no key is required, forgetting candidates does not fail. -/
theorem Flat.dropStale_eq {level : Nat} {s : Scanner} (flat : Flat level s)
    : s.dropStale = .ok s.freshened := by
  have outer
      : s.outerCandidates.reverse.mapM s.keepFresh
        = .ok (s.outerCandidates.reverse.map s.fresh) := by
    apply mapM_eq_map
    intro candidate member
    exact keepFresh_eq s (flat.optional candidate (List.mem_reverse.mp member))
  rw [dropStale, outer, keepFresh_eq s flat.inner]
  simp only [bind, Except.bind, List.map_reverse, List.reverse_reverse]
  rfl

theorem Flat.freshened {level : Nat} {s : Scanner} (flat : Flat level s)
    : Flat level s.freshened where
  indent := flat.indent
  outer := flat.outer
  running := flat.running
  level := (List.length_map _).trans flat.level
  inner := fun k member => flat.inner k (mem_of_mem_fresh member)
  optional := by
    intro candidate member k inside
    obtain ⟨old, present, rfl⟩ := List.mem_map.mp member
    exact flat.optional old present k (mem_of_mem_fresh inside)

-----------------------------------------------------------------------------------------
-- White space
-----------------------------------------------------------------------------------------

/-- What comes next, behind white space, starts a token. -/
def Starts (rest : List Char) : Prop :=
  ∀ x ∈ (skipBlanks rest).head?, isBreak x = false ∧ x ≠ '#' ∧ x ≠ '\ufeff'

theorem Starts.visible {rest : List Char} (starts : Starts rest) : Visible rest :=
  fun x head => (starts x head).1

/-- A scanner may pass over the white space that comes next: tabs count as such in flow
collections only.
-/
def Passes (s : Scanner) : Prop :=
  s.inFlow = true ∨ '\t' ∉ s.cursor.rest.takeWhile Json.isBlank

/-- White space in front does not matter for what comes next. -/
theorem Starts.behind {space : Space} {rest : List Char} (starts : Starts (space.1 ++ rest))
    : Starts rest := by
  rwa [Starts, Json.skipBlanks_space] at starts

/-- Nor does it for what may be passed over. -/
theorem Passes.behind {s next : Scanner} {space : Space} (passes : s.Passes)
    (text : s.cursor.rest = space.1 ++ next.cursor.rest) (level : next.inFlow = s.inFlow)
    : next.Passes := by
  rcases passes with flow | tabless
  · exact Or.inl (level.trans flow)
  · rw [text, List.takeWhile_append_of_pos space.2] at tabless
    exact Or.inr (fun tab => tabless (List.mem_append_right _ tab))

/-- The blanks that are passed over on a line. -/
def isLineBlank (s : Scanner) (x : Char) : Bool :=
  x = ' ' || ((s.inFlow || !s.keyAllowed) && x = '\t')

/-- Passing over the blanks of a line leaves what is behind them. -/
theorem exists_lineBlanks (s : Scanner)
    : ∃ blanks : Space,
        s.cursor.rest = blanks.1 ++ (s.cursor.skipWhile s.isLineBlank).rest
        ∧ ∀ x ∈ (s.cursor.skipWhile s.isLineBlank).rest.head?, s.isLineBlank x = false := by
  have blank : ∀ x ∈ s.cursor.rest.takeWhile s.isLineBlank, Json.isBlank x = true := by
    intro x member
    have taken := List.all_eq_true.mp List.all_takeWhile x member
    simp only [isLineBlank, Bool.or_eq_true, Bool.and_eq_true, decide_eq_true_eq] at taken
    rcases taken with rfl | ⟨_, rfl⟩ <;> rfl
  have whole
      : s.cursor.rest
        = s.cursor.rest.takeWhile s.isLineBlank ++ s.cursor.rest.dropWhile s.isLineBlank :=
    List.takeWhile_append_dropWhile.symm
  have behind
      : (s.cursor.skipWhile s.isLineBlank).rest = s.cursor.rest.dropWhile s.isLineBlank :=
    Cursor.rest_skip _ whole
  refine ⟨⟨_, blank⟩, by rw [behind]; exact whole, ?_⟩
  intro x head
  have stop := List.head?_dropWhile_not s.isLineBlank s.cursor.rest
  rw [behind] at head
  rw [head] at stop
  exact stop

/-- One round takes the blanks of a line and its end, if it ends there. -/
theorem skipToToken_succ (fuel : Nat) {s : Scanner} (starts : Starts s.cursor.rest)
    : skipToToken (fuel + 1) s
      = match (s.cursor.skipWhile s.isLineBlank).lineBreak? with
        | some (_, behind) =>
            skipToToken fuel { s with cursor := behind, keyAllowed := s.keyAllowed || !s.inFlow }
        | none => { s with cursor := s.cursor.skipWhile s.isLineBlank } := by
  have unmarked
      : (if s.cursor.mark.column = 0 ∧ s.cursor.rest.head? = some '\ufeff' then s.cursor.skip 1
          else s.cursor)
        = s.cursor := by
    apply if_neg
    rintro ⟨_, marked⟩
    cases text : s.cursor.rest with
    | nil => simp [text] at marked
    | cons x more =>
        rw [text] at marked starts
        obtain rfl := Option.some.inj marked
        exact (starts _ (by rfl)).2.2 rfl
  obtain ⟨blanks, whole, _⟩ := exists_lineBlanks s
  have starts' : Starts (s.cursor.skipWhile s.isLineBlank).rest := (whole ▸ starts).behind
  have uncommented
      : (s.cursor.skipWhile s.isLineBlank).skipComment = s.cursor.skipWhile s.isLineBlank := by
    rw [Cursor.skipComment]
    split
    case h_1 text =>
      rw [text] at starts'
      exact absurd rfl (starts' _ (by rfl)).2.1
    case h_2 => rfl
  have line
      : s.cursor.skipWhile (fun x => x = ' ' || ((s.inFlow || !s.keyAllowed) && x = '\t'))
        = s.cursor.skipWhile s.isLineBlank :=
    rfl
  rw [skipToToken]
  cases found : (s.cursor.skipWhile s.isLineBlank).lineBreak? <;>
    simp only [unmarked, line, uncommented, found]

/-- White space is passed over up to the next token. In flow collections this does not change
whether a key may stand there.
Witness: induction on the rounds.
-/
theorem skipToToken_eq (fuel : Nat) {s : Scanner} (starts : Starts s.cursor.rest)
    (passes : s.Passes) (enough : s.cursor.rest.length < fuel)
    : ∃ c allowed,
        skipToToken fuel s = { s with cursor := c, keyAllowed := allowed }
        ∧ c.rest = skipBlanks s.cursor.rest
        ∧ (s.inFlow = true → allowed = s.keyAllowed) := by
  induction fuel generalizing s with
  | zero => contradiction
  | succ fuel ih =>
      obtain ⟨blanks, whole, stop⟩ := exists_lineBlanks s
      have starts' : Starts (s.cursor.skipWhile s.isLineBlank).rest := (whole ▸ starts).behind
      rw [skipToToken_succ fuel starts]
      cases found : (s.cursor.skipWhile s.isLineBlank).lineBreak? with
      | none =>
          refine ⟨_, s.keyAllowed, rfl, ?_, fun _ => rfl⟩
          rw [whole, Json.skipBlanks_space]
          cases text : (s.cursor.skipWhile s.isLineBlank).rest with
          | nil => rfl
          | cons y more =>
              refine (Json.skipBlanks_cons (isBlank_eq_false text ?_ found) more).symm
              have kept : s.isLineBlank y = false := stop y (by rw [text]; rfl)
              by_cases tab : y = '\t'
              · subst tab
                rcases passes with flow | tabless
                · simp [isLineBlank, flow] at kept
                · rw [whole, text, List.takeWhile_append_of_pos blanks.2] at tabless
                  exact absurd (List.mem_append_right _ (by simp [Json.isBlank])) tabless
              · have space : y ≠ ' ' := by
                  rintro rfl
                  simp [isLineBlank] at kept
                simp [Yaml.isBlank, tab, space]
      | some lineBreak =>
          obtain ⟨kept, behind⟩ := lineBreak
          obtain ⟨ends, text, shorter⟩ := exists_lineBreak starts'.visible found
          let next : Scanner :=
            { s with cursor := behind, keyAllowed := s.keyAllowed || !s.inFlow }
          have whole' : s.cursor.rest = (blanks.append ends).1 ++ behind.rest := by
            rw [whole, text]
            exact (List.append_assoc _ _ _).symm
          have short : behind.rest.length < fuel := by
            have length := congrArg List.length whole
            rw [List.length_append] at length
            omega
          obtain ⟨c, allowed, eq, there, same⟩ :=
            ih (s := next) (whole' ▸ starts).behind (passes.behind whole' rfl) short
          refine ⟨c, allowed, eq, ?_, ?_⟩
          · rw [there, whole', Json.skipBlanks_space]
          · intro flow
            have flow' : s.inFlow = true := flow
            rw [same flow, show next.keyAllowed = (s.keyAllowed || !s.inFlow) from rfl, flow']
            exact Bool.or_false _

-----------------------------------------------------------------------------------------
-- Rounds
-----------------------------------------------------------------------------------------

/-- One round: the token that comes next is read, and what has to be inserted before it. -/
def round (s : Scanner) : Except SyntaxError Scanner := do
  let s ← if s.delivered < s.count then s.dropStale else .ok s
  { s with delivered := max s.delivered s.firstHeld }.fetch

/-- A scanner at the start of a round: if tokens wait, candidates for which it is too late are gone.
-/
def settled (s : Scanner) : Scanner :=
  let s := if s.delivered < s.count then s.freshened else s
  { s with delivered := max s.delivered s.firstHeld }

theorem Flat.settled {level : Nat} {s : Scanner} (flat : Flat level s) : Flat level s.settled := by
  rw [Scanner.settled]
  split
  · exact { flat.freshened with }
  · exact { flat with }

theorem settled_cursor (s : Scanner) : s.settled.cursor = s.cursor := by
  rw [settled]
  split <;> rfl

theorem settled_tokens (s : Scanner) : s.settled.tokens = s.tokens := by
  rw [settled]
  split <;> rfl

theorem settled_count (s : Scanner) : s.settled.count = s.count := by
  rw [settled]
  split <;> rfl

theorem settled_keyAllowed (s : Scanner) : s.settled.keyAllowed = s.keyAllowed := by
  rw [settled]
  split <;> rfl

/-- Where no block is open none is closed. -/
theorem Flat.closeBlocks_eq {level : Nat} {s : Scanner} (flat : Flat level s) (column : Int)
    : s.closeBlocks column = s := by
  rw [closeBlocks, flat.outer]
  split <;> rfl

/-- A round settles and then fetches. -/
theorem Flat.round_eq_fetch {level : Nat} {s : Scanner} (flat : Flat level s)
    : s.round = s.settled.fetch := by
  by_cases waiting : s.delivered < s.count
  · simp only [round, Scanner.settled, waiting, if_true, flat.dropStale_eq]
    rfl
  · simp only [round, Scanner.settled, waiting, if_false]
    rfl

/-- To fetch is to pass over white space and to read a token. -/
theorem Flat.round_eq {level : Nat} {s : Scanner} (flat : Flat level s)
    : s.round
      = (skipToToken (s.cursor.rest.length + 1) s.settled).dropStale.bind
          (fun s => (s.closeBlocks s.cursor.mark.column).fetchHere) := by
  rw [flat.round_eq_fetch, fetch, settled_cursor]
  rfl

/-- Where the scanner stands before it reads a token that starts here. -/
structure Before (s prepared : Scanner) (level : Nat) (rest : List Char) : Prop where
  round : s.round = prepared.fetchHere
  flat : Flat level prepared
  tokens : prepared.tokens = s.tokens
  rest : prepared.cursor.rest = rest

/-- A round reads the token behind the white space that may be passed over. -/
theorem Flat.exists_before {level : Nat} {s : Scanner} (flat : Flat level s)
    (starts : Starts s.cursor.rest) (passes : s.Passes)
    : ∃ prepared,
        Before s prepared level (skipBlanks s.cursor.rest)
        ∧ (0 < level → prepared.keyAllowed = s.keyAllowed) := by
  have starts' := starts
  have passes' : s.settled.Passes := by
    rwa [Passes, flat.settled.inFlow, ← flat.inFlow, settled_cursor]
  rw [← settled_cursor] at starts'
  obtain ⟨c, allowed, skipped, there, same⟩ :=
    skipToToken_eq (s.cursor.rest.length + 1) starts' passes'
      (by rw [settled_cursor]; exact Nat.lt_succ_self _)
  let next : Scanner := { s.settled with cursor := c, keyAllowed := allowed }
  have flat' : Flat level next := { flat.settled with }
  rw [settled_cursor] at there
  refine ⟨next.freshened, ⟨?_, flat'.freshened, settled_tokens s, there⟩, ?_⟩
  · rw [flat.round_eq, skipped, flat'.dropStale_eq]
    exact congrArg fetchHere (flat'.freshened.closeBlocks_eq _)
  · intro deep
    rw [← settled_keyAllowed s]
    exact same (by rw [flat.settled.inFlow]; exact decide_eq_true deep)

/-- A candidate for which it is not too late stays. -/
theorem freshened_candidate {s : Scanner} {k : KeyCandidate} (candidate : s.candidate = some k)
    (timely : s.isStale k = false)
    : s.freshened.candidate = some k := by
  rw [freshened, fresh, candidate, Option.filter_some, timely]
  rfl

/-- A colon in the line of a candidate, and near enough, is read with the candidate in place. -/
theorem Flat.exists_before_colon {level : Nat} {s : Scanner} (flat : Flat (level + 1) s)
    {k : KeyCandidate} (candidate : s.candidate = some k)
    (line : k.mark.line = s.cursor.mark.line) {space : Space} {rest : List Char}
    (text : s.cursor.rest = space.1 ++ ':' :: rest)
    (oneLine : ∀ x ∈ space.1, Yaml.isBlank x = true)
    (near : s.cursor.mark.index + space.1.length ≤ k.mark.index + 1024)
    : ∃ prepared,
        Before s prepared (level + 1) (':' :: rest)
        ∧ prepared.candidate = some k
        ∧ prepared.count = s.count := by
  have timely (c : Cursor) (near : c.mark.index ≤ k.mark.index + 1024)
      (line : k.mark.line = c.mark.line) (t : Scanner) (here : t.cursor = c)
      : t.isStale k = false := by
    simp only [isStale, here, line, Nat.lt_irrefl, decide_false, Bool.false_or,
      decide_eq_false_iff_not]
    omega
  have waiting : s.settled.candidate = some k := by
    rw [Scanner.settled]
    split
    · exact freshened_candidate candidate (timely s.cursor (by omega) line s rfl)
    · exact candidate
  have flow : s.settled.inFlow = true := by
    rw [flat.settled.inFlow]
    rfl
  have blank : ∀ x ∈ space.1, s.settled.isLineBlank x = true := by
    intro x member
    have either := oneLine x member
    simp only [Yaml.isBlank, Bool.or_eq_true, decide_eq_true_eq] at either
    rcases either with rfl | rfl <;> simp [isLineBlank, flow]
  have taken : s.settled.cursor.skipWhile s.settled.isLineBlank = s.cursor.skip space.1.length := by
    rw [settled_cursor, Cursor.skipWhile, text, List.takeWhile_append_of_pos blank]
    simp [isLineBlank]
  have behind := Cursor.rest_skip space.1 text
  have starts : Starts s.settled.cursor.rest := by
    rw [settled_cursor, text, Starts, Json.skipBlanks_space]
    rintro _ ⟨rfl⟩
    decide
  have going : (s.cursor.skip space.1.length).lineBreak? = none := by
    apply Cursor.lineBreak?_eq_none
    rw [behind]
    rintro _ ⟨rfl⟩
    rfl
  let next : Scanner := { s.settled with cursor := s.cursor.skip space.1.length }
  have flat' : Flat (level + 1) next := { flat.settled with }
  have skipped : skipToToken (s.cursor.rest.length + 1) s.settled = next := by
    rw [skipToToken_succ _ starts, taken, going]
  refine ⟨next.freshened, ⟨?_, flat'.freshened, settled_tokens s, behind⟩, ?_, settled_count s⟩
  · rw [flat.round_eq, skipped, flat'.dropStale_eq]
    exact congrArg fetchHere (flat'.freshened.closeBlocks_eq _)
  · exact freshened_candidate waiting (timely next.cursor near line next rfl)

-----------------------------------------------------------------------------------------
-- Tokens
-----------------------------------------------------------------------------------------

/-- Where no key is required, giving up the candidate does not fail. -/
theorem Flat.dropCandidate_eq {level : Nat} {s : Scanner} (flat : Flat level s)
    : s.dropCandidate = .ok { s with candidate := none } := by
  obtain ⟨_, _, _, _, _, _, candidate, _, _, _⟩ := s
  cases candidate with
  | none => rfl
  | some k =>
      have free : k.required = false := flat.inner k rfl
      simp [dropCandidate, free]

/-- Any candidate that requires no key may be there. -/
theorem Flat.withCandidate {level : Nat} {s : Scanner} (flat : Flat level s)
    {candidate : Option KeyCandidate} (optional : ∀ k ∈ candidate, k.required = false)
    : Flat level { s with candidate } :=
  { flat with inner := optional }

/-- Saving a candidate does not fail; one is saved where a key may stand. -/
theorem Flat.saveCandidate_eq {level : Nat} {s : Scanner} (flat : Flat level s)
    : ∃ candidate,
        s.saveCandidate = .ok { s with candidate }
        ∧ (∀ k ∈ candidate, k.required = false)
        ∧ (s.keyAllowed = true → candidate = some ⟨s.count, s.cursor.mark, false⟩) := by
  rw [saveCandidate]
  by_cases allowed : s.keyAllowed = true
  · have shallow : decide (s.indent = (s.cursor.mark.column : Int)) = false := by
      rw [flat.indent, decide_eq_false_iff_not]
      omega
    refine ⟨some ⟨s.count, s.cursor.mark, false⟩, ?_, ?_, fun _ => rfl⟩
    · simp only [allowed, if_true, flat.dropCandidate_eq, shallow, Bool.and_false]
      simp only [← allowed]
      rfl
    · rintro k ⟨rfl⟩
      rfl
  · rw [if_neg allowed]
    exact ⟨s.candidate, rfl, flat.inner, fun h => absurd h allowed⟩

/-- What a token leaves: one level, its kind behind the others, and the text behind it. -/
structure After (s next : Scanner) (level : Nat) (kind : Token.Kind) (rest : List Char) : Prop where
  flat : Flat level next
  tokens : next.tokens.map Token.kind = kind :: s.tokens.map Token.kind
  rest : next.cursor.rest = rest

section Fetching

variable {level : Nat} {s : Scanner} {rest : List Char}

/-- The opening mark of a collection is read, and keys may stand behind it. -/
theorem Flat.fetchFlowStart (flat : Flat level s) {x : Char} (text : s.cursor.rest = x :: rest)
    (kind : Token.Kind)
    : ∃ next,
        s.fetchFlowStart kind = .ok next
        ∧ After s next (level + 1) kind rest
        ∧ next.keyAllowed = true := by
  obtain ⟨candidate, saved, optional, _⟩ := flat.saveCandidate_eq
  rw [Scanner.fetchFlowStart, saved]
  refine ⟨_, rfl, ⟨?_, rfl, Cursor.rest_skip [x] text⟩, rfl⟩
  exact {
    flat with
    level := congrArg (· + 1) flat.level
    inner := nofun
    optional := by
      intro saved member
      rcases List.mem_cons.mp member with rfl | outer
      · exact optional
      · exact flat.optional saved outer
  }

/-- The closing mark of a collection is read. -/
theorem Flat.fetchFlowEnd (flat : Flat (level + 1) s) {x : Char}
    (text : s.cursor.rest = x :: rest) (kind : Token.Kind)
    : ∃ next, s.fetchFlowEnd kind = .ok next ∧ After s next level kind rest := by
  obtain ⟨outer, more, candidates⟩ := List.exists_cons_of_length_eq_add_one flat.level
  have fetched
      : s.fetchFlowEnd kind
        = .ok
            { ({ s with candidate := none }).pushMark kind 1 with
              keyAllowed := false
              candidate := outer
              outerCandidates := more } := by
    rw [Scanner.fetchFlowEnd, flat.dropCandidate_eq]
    simp only [bind, Except.bind, pushMark, push, candidates]
  refine ⟨_, fetched, ⟨?_, rfl, Cursor.rest_skip [x] text⟩⟩
  have count := flat.level
  have optional := flat.optional
  rw [candidates] at count optional
  exact {
    flat with
    level := Nat.succ.inj count
    inner := optional outer List.mem_cons_self
    optional := fun saved member => optional saved (List.mem_cons_of_mem _ member)
  }

/-- A comma is read, and a key may stand behind it. -/
theorem Flat.fetchFlowEntry (flat : Flat level s) {x : Char} (text : s.cursor.rest = x :: rest)
    : ∃ next,
        s.fetchFlowEntry = .ok next
        ∧ After s next level .flowEntry rest
        ∧ next.keyAllowed = true := by
  rw [Scanner.fetchFlowEntry, flat.dropCandidate_eq]
  refine ⟨_, rfl, ⟨?_, rfl, Cursor.rest_skip [x] text⟩, rfl⟩
  exact { flat with inner := nofun }

/-- A quoted string is read; where a key may stand it is the candidate for one. -/
theorem Flat.fetchQuoted (flat : Flat level s) {glyphs : List Json.Glyph}
    (portable : ∀ g ∈ glyphs, PortableGlyph g) (text : s.cursor.rest = Json.quoted glyphs rest)
    : ∃ next,
        s.fetchQuoted false = .ok next
        ∧ After s next level (.scalar (glyphs.map Json.Glyph.char) false) rest
        ∧ next.cursor = s.cursor.skip ((glyphs.flatMap Json.Glyph.text).length + 2)
        ∧ next.count = s.count + 1
        ∧ (s.keyAllowed = true
            → next.candidate = some ⟨s.count, s.cursor.mark, false⟩) := by
  obtain ⟨candidate, saved, optional, key⟩ := flat.saveCandidate_eq
  have behind : (s.cursor.skip ((glyphs.flatMap Json.Glyph.text).length + 2)).rest = rest := by
    have whole := Cursor.rest_skip (Json.quoted glyphs [])
      (text.trans (Json.quoted_eq_append glyphs rest))
    simpa [Json.quoted] using whole
  rw [Scanner.fetchQuoted, saved]
  simp only [bind, Except.bind, Quoted.read_quoted portable text]
  refine ⟨_, rfl, ⟨?_, rfl, behind⟩, rfl, rfl, key⟩
  exact { flat with inner := optional }

/-- A word is read, and maybe the white space behind it. -/
theorem Flat.fetchPlain (flat : Flat (level + 1) s) {word : List Char}
    (plain : ∀ c ∈ word, Plain.isWordChar c = true) (present : 0 < word.length)
    (encloses : Encloses rest) (text : s.cursor.rest = word ++ rest)
    (unmarked : s.cursor.atDocumentMark = false) (uncommented : s.cursor.rest.head? ≠ some '#')
    : ∃ next,
        s.fetchPlain = .ok next
        ∧ After s next (level + 1) (.scalar word true) (skipBlanks rest) := by
  obtain ⟨candidate, saved, optional, key⟩ := flat.saveCandidate_eq
  obtain ⟨scanned, read, same, behind⟩ :=
    Plain.read_word plain present encloses text unmarked uncommented
  have flow : ({ s with candidate } : Scanner).inFlow = true := by
    rw [(flat.withCandidate optional).inFlow]
    rfl
  have fetched
      : s.fetchPlain
        = .ok
            { ({ s with candidate } : Scanner).push
                ⟨.scalar scanned.text true, s.cursor.mark, scanned.after.mark⟩ with
              keyAllowed := scanned.broken
              cursor := scanned.after } := by
    rw [Scanner.fetchPlain, saved]
    simp only [bind, Except.bind]
    rw [flow, flat.indent, read]
  refine ⟨_, fetched, ⟨?_, ?_, behind⟩⟩
  · exact { flat with inner := optional }
  · rw [← same]
    rfl

/-- A colon turns the candidate, which is the last token, into a key. -/
theorem Flat.fetchValue (flat : Flat (level + 1) s) {k : KeyCandidate} {t : Token}
    {more : List Token} (candidate : s.candidate = some k) (tokens : s.tokens = t :: more)
    (last : s.count = k.number + 1) {x : Char} (text : s.cursor.rest = x :: rest)
    : ∃ next,
        s.fetchValue = .ok next
        ∧ Flat (level + 1) next
        ∧ next.tokens.map Token.kind
          = .value :: t.kind :: .key :: more.map Token.kind
        ∧ next.cursor.rest = rest := by
  let key : Token := ⟨.key, k.mark, k.mark⟩
  let opened : Scanner := { s with tokens := t :: key :: more, count := s.count + 1 }
  have inserted : s.insert k.number key = opened := by
    rw [Scanner.insert, tokens, last, Nat.add_sub_cancel_left]
    simp only [opened, last, List.take_succ_cons, List.take_zero, List.drop_succ_cons,
      List.drop_zero]
    rfl
  have flat' : Flat (level + 1) opened := { flat with }
  have unopened (number : Option Nat) (kind : Token.Kind)
      : opened.openBlock k.mark.column number kind k.mark = opened := by
    rw [openBlock, flat'.inFlow]
    rfl
  have fetched
      : s.fetchValue
        = .ok { opened.pushMark .value 1 with candidate := none, keyAllowed := false } := by
    rw [Scanner.fetchValue, candidate]
    simp only [show (⟨.key, k.mark, k.mark⟩ : Token) = key from rfl, inserted, unopened]
  refine ⟨_, fetched, ?_, rfl, Cursor.rest_skip [x] text⟩
  exact { flat with inner := nofun }

end Fetching

end WorkflowLint.Yaml.Scanner
