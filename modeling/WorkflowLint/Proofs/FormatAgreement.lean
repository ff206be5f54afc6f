import WorkflowLint.Check
import WorkflowLint.Proofs.Json.SourceReading
import WorkflowLint.Proofs.Yaml.SourceNodes
import WorkflowLint.Proofs.Yaml.SourceTokens

/-! Portable JSON texts: read as JSON or as YAML they hold the same document, so that checking a
text, which reads every text as YAML, gives the report on that document.
-/

namespace WorkflowLint

open WorkflowLint.Json (Space Glyph Source Item Entry quoted)
open WorkflowLint.Yaml (Portable PortableGlyph PortableKey isAllowed forbiddenAt?)

-----------------------------------------------------------------------------------------
-- Characters
-----------------------------------------------------------------------------------------

namespace Yaml

/-- All characters of a text may occur. -/
def Allowed (text : List Char) : Prop :=
  ∀ c ∈ text, isAllowed c = true

theorem Allowed.cons {c : Char} {text : List Char} (head : isAllowed c = true)
    (tail : Allowed text)
    : Allowed (c :: text) :=
  List.forall_mem_cons.mpr ⟨head, tail⟩

theorem Allowed.append {first second : List Char} (head : Allowed first) (tail : Allowed second)
    : Allowed (first ++ second) :=
  List.forall_mem_append.mpr ⟨head, tail⟩

theorem allowed_space (space : Space) : Allowed space.1 := by
  intro c member
  have blank := space.2 c member
  simp only [Json.isBlank, Bool.or_eq_true, decide_eq_true_eq] at blank
  rcases blank with ((rfl | rfl) | rfl) | rfl <;> rfl

theorem allowed_quoted {glyphs : List Glyph} (portable : ∀ g ∈ glyphs, PortableGlyph g)
    {rest : List Char} (behind : Allowed rest)
    : Allowed (quoted glyphs rest) := by
  refine .cons rfl (.append ?_ (.cons rfl behind))
  intro c member
  obtain ⟨g, present, inside⟩ := List.mem_flatMap.mp member
  exact (portable g present c inside).1

theorem allowed_digits (n : Nat) : Allowed (digitsOf n) := by
  intro c member
  have digit := isDigit_of_mem_digitsOf member
  have low : 48 ≤ c.toNat ∧ c.toNat ≤ 57 := by
    simpa [Char.isDigit, UInt32.le_iff_toNat_le] using digit
  have printable : (decide (0x20 ≤ c.toNat) && decide (c.toNat ≤ 0x7E)) = true := by
    simp only [Bool.and_eq_true, decide_eq_true_eq]
    omega
  simp only [isAllowed, printable, Bool.or_true, Bool.true_or]

theorem allowed_int (n : Int) : Allowed (Binary64.intText n) := by
  cases n with
  | ofNat n => exact allowed_digits n
  | negSucc n => exact .cons rfl (allowed_digits (n + 1))

theorem allowed_items {more : List (Item Source)}
    (tail : ∀ item ∈ more, ∀ rest, Allowed rest → Allowed (item.value.spell rest))
    {rest : List Char} (behind : Allowed rest)
    : Allowed (Source.spellItems more rest) := by
  induction more with
  | nil => exact behind
  | cons item more ih =>
      have others := ih (fun item member => tail item (List.mem_cons_of_mem _ member))
      refine .cons rfl (.append (allowed_space _) ?_)
      exact tail item List.mem_cons_self _ (.append (allowed_space _) others)

theorem allowed_fields {more : List (Entry Source)} (keys : ∀ field ∈ more, PortableKey field)
    (tail : ∀ field ∈ more, ∀ rest, Allowed rest → Allowed (field.value.spell rest))
    {rest : List Char} (behind : Allowed rest)
    : Allowed (Source.spellFields more rest) := by
  induction more with
  | nil => exact behind
  | cons field more ih =>
      have others := ih (fun field member => keys field (List.mem_cons_of_mem _ member))
        (fun field member => tail field (List.mem_cons_of_mem _ member))
      have value := tail field List.mem_cons_self _ (.append (allowed_space field.after) others)
      refine .cons rfl (.append (allowed_space _) ?_)
      refine allowed_quoted (keys field List.mem_cons_self).glyphs (.append (allowed_space _) ?_)
      exact .cons rfl (.append (allowed_space _) value)

/-- The text of a portable source has no forbidden characters.
Witness: induction on the source.
-/
theorem Portable.allowed {source : Source} (portable : Portable source) (rest : List Char)
    (behind : Allowed rest)
    : Allowed (source.spell rest) := by
  induction portable generalizing rest with
  | null => exact .cons rfl (.cons rfl (.cons rfl (.cons rfl behind)))
  | @bool b =>
      refine .append ?_ behind
      cases b <;> exact List.all_eq_true.mp rfl
  | int => exact .append (allowed_int _) behind
  | string portable => exact allowed_quoted portable behind
  | emptyList => exact .cons rfl (.append (allowed_space _) (.cons rfl behind))
  | list _ _ head tail =>
      refine .cons rfl (.append (allowed_space _) (head _ (.append (allowed_space _) ?_)))
      exact allowed_items tail (.cons rfl behind)
  | emptyMap => exact .cons rfl (.append (allowed_space _) (.cons rfl behind))
  | @map first _ keys _ _ _ head tail =>
      obtain ⟨key, keys⟩ := List.forall_mem_cons.mp keys
      have others := allowed_fields keys tail (.cons (c := '}') rfl behind)
      have value := head _ (.append (allowed_space first.after) others)
      refine .cons rfl (.append (allowed_space _) ?_)
      refine allowed_quoted key.glyphs (.append (allowed_space _) ?_)
      exact .cons rfl (.append (allowed_space _) value)

/-- Where no character is forbidden none is found. -/
theorem forbiddenAt?_eq_none {text : List Char} (allowed : Allowed text) (byte : Nat)
    : forbiddenAt? byte text = none := by
  induction text generalizing byte with
  | nil => rfl
  | cons c text ih =>
      obtain ⟨head, tail⟩ := List.forall_mem_cons.mp allowed
      rw [forbiddenAt?, head]
      exact ih tail _

end Yaml

-----------------------------------------------------------------------------------------
-- Texts
-----------------------------------------------------------------------------------------

/-- A text that is JSON and that both formats read alike: a portable list or map between white
space that has no tabs.
-/
structure PortableText where
  source : Source
  before : Space
  after : Space
  portable : Portable source
  collection : source.isCollection = true
  within : source.Within Json.depthLimit
  lead : '\t' ∉ before.1
  trail : '\t' ∉ after.1

namespace PortableText

def text (t : PortableText) : String :=
  String.ofList (t.before.1 ++ t.source.spell t.after.1)

/-- A portable text is read as JSON for what its source describes. -/
theorem parse_json (t : PortableText) : parse .json t.text = .ok t.source.value := by
  rw [parse, Json.read, text, String.toList_ofList, Json.readText_source t.within]
  rfl

/-- Its document holds the steps of its source. -/
theorem holds (t : PortableText)
    : (Yaml.Document.ofText (t.before.1 ++ t.source.spell t.after.1)).Holds
        (Yaml.stepsOf t.source) := by
  have allowed := (Yaml.allowed_space t.before).append
    (t.portable.allowed _ (Yaml.allowed_space t.after))
  obtain ⟨tokens, scanned, kinds⟩ := t.portable.scan_eq t.collection t.lead t.trail
  rw [Yaml.Document.ofText, Yaml.forbiddenAt?_eq_none allowed, scanned]
  exact Yaml.Document.ofTokens_holds kinds

/-- It is not all white space. -/
theorem not_all_isSpace (t : PortableText)
    : (t.before.1 ++ t.source.spell t.after.1).all Yaml.isSpace = false := by
  have visible : (t.source.spell t.after.1).all Yaml.isSpace = false := by
    have collection := t.collection
    cases source : t.source <;> rw [source] at collection <;> first | contradiction | rfl
  rw [List.all_append, visible, Bool.and_false]

/-- It is read as YAML for the same. -/
theorem parse_yaml (t : PortableText) : parse .yaml t.text = .ok t.source.value := by
  have read : Yaml.readText (t.before.1 ++ t.source.spell t.after.1) = .ok t.source.value := by
    rw [Yaml.readText, t.not_all_isSpace]
    simp only [t.portable.ofDocument_eq (t.within.mono (by decide)) t.holds,
      t.portable.mergeKeys_eq, Yaml.toValue_nodeOf, Except.mapError, Bool.false_eq_true, if_false,
      bind, Except.bind]
  rw [parse, Yaml.read, text, String.toList_ofList, read]
  rfl

/-- Checking a portable text gives the report on the document that it holds as JSON. -/
theorem checkText_eq (t : PortableText)
    : checkText t.text = (parse .json t.text).map (validate Options.default) := by
  rw [checkText, t.parse_yaml, t.parse_json]

/-- A map with a list in it is such a text. -/
theorem checkText_eq_map
    : ∃ t : PortableText,
        t.text = "\x7b\"a\": [1, true]\x7d"
        ∧ checkText t.text = (parse .json t.text).map (validate Options.default) := by
  let blank : Space := ⟨[' '], List.forall_mem_singleton.mpr rfl⟩
  let tight : Space := ⟨[], nofun⟩
  let letter : Glyph := ⟨['a'], 'a', .plain (by decide) (by decide) (by decide)⟩
  let one : Item Source := ⟨tight, .int ⟨1, by decide⟩, tight⟩
  let list : Source := .list one [⟨blank, .bool true, tight⟩]
  let field : Entry Source := ⟨tight, [letter], tight, blank, list, tight⟩
  have key : PortableKey field :=
    {
      glyphs := List.forall_mem_singleton.mpr (List.forall_mem_singleton.mpr ⟨rfl, rfl⟩)
      oneLine := nofun
      near := by decide
      plain := by decide
    }
  let t : PortableText :=
    {
      source := .map field []
      before := tight
      after := tight
      portable :=
        .map (List.forall_mem_singleton.mpr key) (List.pairwise_singleton _ _)
          (.list .int (List.forall_mem_singleton.mpr .bool)) nofun
      collection := rfl
      within := .map (.list .int (List.forall_mem_singleton.mpr .bool)) nofun
      lead := nofun
      trail := nofun
    }
  exact ⟨t, rfl, t.checkText_eq⟩

end PortableText

/-- A character that is spelled as a pair of numbers is read as JSON, but not as YAML. -/
theorem checkText_ne_of_pair
    : parse .json "\x7b\"icon\":\"\\ud83d\\ude00\",\"kind\":\"app\"\x7d"
        = .ok (.map [("icon", .string "😀"), ("kind", .string "app")])
      ∧ checkText "\x7b\"icon\":\"\\ud83d\\ude00\",\"kind\":\"app\"\x7d"
        = .error
            (.yaml
              ("found invalid Unicode character escape code at line 1 column 12, "
                ++ "while parsing a quoted scalar at line 1 column 9")) :=
  ⟨rfl, rfl⟩

end WorkflowLint
