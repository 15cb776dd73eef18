import TypeGloss.Proofs.ParsedTokens
import TypeGloss.Proofs.Scannable

/-!
# The tokens behind a program

At every moment the parser spells the essence of the tokens that were read so far. So a program
without type syntax spells the essence of its source.
-/

namespace TypeGloss

open Spelling
open Grammar (Form Fits TypeSlot)

namespace Token

/-- The texts of the tokens of a stream. A terminator that was inserted has none. -/
def texts (ts : List Token) : List Text := (ts.map text).filter (· ≠ [])

@[simp] theorem texts_append (ts us : List Token) : texts (ts ++ us) = texts ts ++ texts us := by
  simp [texts]

/-- What a token is for, as its kind and its text tell it. -/
def RolesAgree (kind : TokenKind) (t : Text) : Prop :=
  (kind.isGrouping = true ↔ t = [] ∨ t ∈ groupingSigns) ∧
    (kind.endsList = true ↔ t ∈ closingSigns) ∧ (kind = .comma ↔ t = commaSign)

instance (kind : TokenKind) (t : Text) : Decidable (RolesAgree kind t) :=
  inferInstanceAs (Decidable (_ ∧ _ ∧ _))

/-- The texts that tell what a token is for. -/
def roleTexts : List Text := [] :: commaSign :: (groupingSigns ++ closingSigns)

theorem rolesAgree_of_other {kind : TokenKind} {t : Text} (noRole : t ∉ roleTexts)
    (plain : kind.isGrouping = false ∧ kind.endsList = false ∧ kind ≠ .comma) :
    RolesAgree kind t := by
  simp only [roleTexts, List.mem_cons, List.mem_append, not_or] at noRole
  obtain ⟨some, noComma, noGrouping, noClosing⟩ := noRole
  simp [RolesAgree, plain, some, noComma, noGrouping, noClosing]

theorem not_mem_roleTexts_of_word {t : Text} (word : Lexeme.isWordText t = true) :
    t ∉ roleTexts := by
  have words : ∀ t ∈ roleTexts, Lexeme.isWordText t = false := by decide
  intro mem
  rw [words t mem] at word
  cases word

theorem not_mem_roleTexts_of_literal {t : Text}
    (literal : Lexeme.IsNumber t ∨ Lexeme.IsString t ∨ Lexeme.IsTemplate t) : t ∉ roleTexts := by
  have literals : ∀ t ∈ roleTexts, Lexeme.number? t ≠ some t.length ∧
      Lexeme.quoted? t ≠ some ⟨some .string, t.length⟩ ∧
      Lexeme.quoted? t ≠ some ⟨some .template, t.length⟩ := by decide
  intro mem
  obtain ⟨noNumber, noString, noTemplate⟩ := literals t mem
  rcases literal with number | string | template
  · exact noNumber number
  · exact noString string
  · exact noTemplate template

theorem rolesAgree_of_formed {kind : TokenKind} {t : Text} (formed : Formed kind t) :
    RolesAgree kind t := by
  have signs : ∀ sign ∈ Lexeme.signs, RolesAgree sign.2 sign.1 := by decide
  cases kind with
  | name => exact rolesAgree_of_other (not_mem_roleTexts_of_word formed) ⟨rfl, rfl, by decide⟩
  | keyword word =>
    obtain rfl : t = word.spelling := formed
    exact rolesAgree_of_other (not_mem_roleTexts_of_word (Lexeme.isWordText_spelling word))
      ⟨rfl, rfl, nofun⟩
  | number =>
    exact rolesAgree_of_other (not_mem_roleTexts_of_literal (.inl formed)) ⟨rfl, rfl, by decide⟩
  | string =>
    exact rolesAgree_of_other (not_mem_roleTexts_of_literal (.inr (.inl formed)))
      ⟨rfl, rfl, by decide⟩
  | template =>
    exact rolesAgree_of_other (not_mem_roleTexts_of_literal (.inr (.inr formed)))
      ⟨rfl, rfl, by decide⟩
  | terminator => rcases formed with rfl | rfl <;> decide
  | objectBrace | functionExpr | arrowParen =>
    obtain rfl : t = _ := formed
    decide
  | _ => exact signs _ formed

end Token

namespace Parse

section Steps

variable {R : Prop}

/-- Whether the parts of a form may be absent. -/
def allowsAbsent : Form → Bool
  | .optional .. | .initializer => true
  | _ => false

theorem isAbsent_of_fits {form : Form} {node : Node} (fits : Fits (.source R) form node)
    (required : allowsAbsent form = false) : node.isAbsent = false := by
  induction fits with
  | wrapped inner unwrapped ih =>
    rename_i e
    have present := ih rfl
    cases e <;> first | rfl | cases present
  | binary level => cases level <;> rfl
  | interface allowed => obtain ⟨-, -⟩ := allowed; rfl
  | param bound | defaultParam bound => first | rfl | cases bound <;> rfl
  | declaredVariables inner ih | declared inner ih | blockStatement inner ih => exact ih rfl
  | _ => first | rfl | cases required

/-- Every token that is read is spelled in the state behind it. -/
theorem step_continues {t : Token} {s s' : State} {last : Option TokenKind} {rest : List Token}
    (formed : Token.Formed t.kind t.text) (sound : s.Sound R last rest) (tidy : s.Tidy)
    (stepped : step s t = some s') : Continues s.spelling s.endsInComma t s' := by
  obtain ⟨focus, frames⟩ := s
  have focusSound := sound.2
  cases focus with
  | statement => exact (statementStart_continues formed stepped).of_eq (by simp)
  | finished node silent =>
    have present : node.isAbsent = false := by
      rcases focusSound.2 with ⟨-, fits⟩ | ⟨-, fits⟩ <;> exact isAbsent_of_fits fits rfl
    have quiet : silent = true → node.spelling = [] := by
      rintro rfl
      exact tidy
    exact statementNext_continues formed present quiet stepped
  | operand => exact (operandStart_continues formed stepped).of_eq (by simp)
  | operator x =>
    have present : x.node.isAbsent = false := by
      rcases focusSound.2 with ⟨fits, -⟩ | ⟨-, -, ⟨loc, name, same, -⟩, -⟩
      · exact isAbsent_of_fits fits rfl
      · rw [same]
        rfl
    exact operatorNext_continues formed present stepped
  | comparison left sign =>
    obtain ⟨-, -, -, before⟩ := focusSound
    have isSign := before.imp And.right And.right
    exact (comparisonNext_continues formed isSign stepped).of_eq (by simp)
  | selector | newName | newSelector | declaratorName =>
    obtain ⟨kind, rfl⟩ := of_ite_some stepped
    exact .plain kind (by simp) rfl rfl trivial
  | newCallee loc callee => exact (newNext_continues formed stepped).of_eq (by simp)
  | property => exact (propertyStart_continues formed stepped).of_eq (by simp)
  | propertyName name => exact propertyNext_continues formed stepped
  | propertyColon | arrowSign =>
    obtain ⟨kind, rfl⟩ := of_ite_some stepped
    exact .fixed formed kind rfl (by simp) rfl rfl trivial
  | arrowBody start params => exact (arrowBodyStart_continues formed stepped).of_eq (by simp)
  | typeOperand => exact .typed (typeStart_typed stepped)
  | typeOperator x => exact .typed (typeNext_typed formed focusSound.2.1.isAbsent stepped)
  | typeParamName isFirst => exact .typed (typeParamStart_typed stepped)
  | member => exact .typed (memberStart_typed stepped)
  | memberKey loc key => exact .typed (memberNext_typed stepped)
  | arrayEnd | typeParamColon | typeArrow | memberColon | interfaceName | interfaceBody =>
    obtain ⟨-, rfl⟩ := of_ite_some stepped
    exact .typed ⟨by simp, trivial⟩
  | declarator name => exact declaratorNext_continues formed stepped
  | functionName loc isExpression => exact functionNameStart_continues stepped
  | functionParams header => exact paramsStart_continues stepped
  | paramName isFirst => exact (paramStart_continues tidy stepped).of_eq (by simp)
  | param name => exact paramNext_continues formed stepped
  | functionTail header params => exact (functionTail_continues formed stepped).of_eq (by simp)
  | headerOpen header loc =>
    obtain ⟨kind, rfl⟩ := of_ite_some stepped
    cases header <;> exact .grouping kind (by simp) rfl rfl trivial
  | exported loc isDefault => exact exportStart_continues formed stepped
  | terminator node =>
    obtain ⟨kind, rfl⟩ := of_ite_some stepped
    exact .grouping kind rfl rfl rfl trivial

/-- A state that spells the essence of texts, or holds type syntax. -/
def Tracks (s : State) (done : List Text) : Prop :=
  s.Tidy ∧ (none ∈ s.spelling ∨
    (s.spelling = (essence done).map some ∧
      (s.endsInComma = true ↔ done.getLast? = some commaSign)))

/-- No terminator stands behind a comma. -/
theorem step_eq_none {s : State} {t : Token} (comma : s.endsInComma = true)
    (terminator : t.kind = .terminator) : step s t = none := by
  obtain ⟨focus, frames⟩ := s
  cases focus with
  | operand =>
    have noAtom : atom? t = none := by simp [atom?, terminator]
    have noOpening : opening? t = none := by simp [opening?, terminator]
    have noOmission : omission? t frames = none := by
      unfold omission?
      split <;> first | cases comma | simp [terminator]
    simp [step, operandStart, noAtom, noOpening, noOmission, terminator]
  | property => simp [step, propertyStart, terminator]
  | declaratorName => simp [step, expect, terminator]
  | paramName => simp [step, paramStart, terminator]
  | _ => cases comma

theorem Tracks.step {s s' : State} {t : Token} {done : List Text}
    (formed : Token.Formed t.kind t.text) (tracks : Tracks s done)
    (continues : Continues s.spelling s.endsInComma t s')
    (quiet : t.text = [] → s.endsInComma = false) : Tracks s' (done ++ Token.texts [t]) := by
  refine ⟨continues.tidy, ?_⟩
  obtain ⟨tidy, typed | ⟨spelled, ending⟩⟩ := tracks
  · exact .inl (continues.keeps typed).1
  obtain ⟨grouping, closing, comma⟩ := Token.rolesAgree_of_formed formed
  cases continues with
  | typed typed => exact .inl typed.1
  | spelled same plain isComma =>
    refine .inr ?_
    by_cases silent : t.text = []
    · have isGrouping := grouping.mpr (.inl silent)
      have noComma : t.kind ≠ .comma := by rintro kind; rw [kind] at isGrouping; cases isGrouping
      have noLast : done.getLast? ≠ some commaSign := by
        rw [ne_eq, ← ending, quiet silent]
        decide
      have closed : s'.endsInComma = false := by simpa using mt isComma.mp noComma
      simp [Token.texts, silent, same, isGrouping, spelled, closed, noLast]
    · have texts : Token.texts [t] = [t.text] := by simp [Token.texts, silent]
      rw [texts, essence_concat, List.getLast?_concat, isComma, comma, Option.some_inj, same,
        spelled]
      refine ⟨?_, .rfl⟩
      by_cases signs : t.text ∈ groupingSigns
      · simp [signs, grouping.mpr (.inr signs)]
      · have noGrouping : t.kind.isGrouping = false := by
          simpa using mt grouping.mp (by simp [silent, signs])
        have kept : ¬ (t.text ∈ closingSigns ∧ done.getLast? = some commaSign) := by
          rintro ⟨ends, last⟩
          rcases plain with plain | plain
          · rw [closing.mpr ends] at plain
            cases plain
          · rw [ending.mpr last] at plain
            cases plain
        simp [signs, noGrouping, kept, word]
  | @listEnd items trailing same ends swallowed open' =>
    refine .inr ?_
    have isClosing := closing.mp ends
    have noGrouping : t.text ∉ groupingSigns ∧ t.text ≠ commaSign ∧ t.text ≠ [] := by
      have all : ∀ t ∈ closingSigns, t ∉ groupingSigns ∧ t ≠ commaSign ∧ t ≠ [] := by decide
      exact all _ isClosing
    have items_eq : items = (essence done).dropLast.map some := by
      rw [List.map_dropLast, ← spelled, trailing, word, List.dropLast_concat]
    have texts : Token.texts [t] = [t.text] := by simp [Token.texts, noGrouping]
    rw [texts, essence_concat, List.getLast?_concat, open', same, items_eq]
    simp [noGrouping, isClosing, ending.mp swallowed, word]

/-- A text is empty only for a terminator. -/
theorem kind_of_text_nil {t : Token} (formed : Token.Formed t.kind t.text) (silent : t.text = []) :
    t.kind = .terminator := by
  have grouping := (Token.rolesAgree_of_formed formed).1.mpr (.inl silent)
  have signs : ∀ sign ∈ Lexeme.signs, sign.1 ≠ [] := by decide
  rw [silent] at formed
  cases kind : t.kind <;> rw [kind] at formed grouping <;>
    first | rfl | cases grouping; done | exact absurd rfl (signs _ formed) | cases formed

theorem finish?_spelling {s : State} {program : Node} {last : Option TokenKind} {rest : List Token}
    (sound : s.Sound R last rest) (tidy : s.Tidy) (finished : finish? s = some program) :
    program.spelling = s.spelling := by
  cases finish?_cases finished with
  | statement => simp
  | @finished node silent frames _ settled =>
    have present : node.isAbsent = false := by
      rcases sound.2.2 with ⟨-, fits⟩ | ⟨-, fits⟩ <;> exact isAbsent_of_fits fits rfl
    have quiet : silent = true → node.spelling = [] := by
      rintro rfl
      exact tidy
    simpa using settle_spelling frames present quiet settled

/-- What is read from tokens spells their essence, behind what was read before. -/
theorem read?_spelling (ts : List Token) {s : State} {last : Option TokenKind} {done : List Text}
    {program : Node} (sound : s.Sound R last ts) (lawful : Token.Lawful R last ts)
    (tracks : Tracks s done) (reads : read? s ts = some program) :
    none ∈ program.spelling ∨
      program.spelling = (essence (done ++ Token.texts ts)).map some := by
  induction ts generalizing s last done with
  | nil =>
    have spelled := finish?_spelling sound tracks.1 reads
    rw [spelled]
    simpa [Token.texts] using tracks.2.imp_right And.left
  | cons t rest ih =>
    obtain ⟨next, stepped, reads⟩ := Option.bind_eq_some_iff.mp (read?_cons s t rest ▸ reads)
    have formed := lawful.1.formed
    have sound' := step_sound sound lawful.1 stepped (by simp [reads])
    have quiet : t.text = [] → s.endsInComma = false := by
      intro silent
      by_contra comma
      rw [step_eq_none (by simpa using comma) (kind_of_text_nil formed silent)] at stepped
      cases stepped
    have tracks' := tracks.step formed (step_continues formed sound tracks.1 stepped) quiet
    have whole := ih sound' lawful.2 tracks' reads
    rwa [List.append_assoc, ← Token.texts_append, List.singleton_append] at whole

end Steps

end Parse

namespace TerminatorState

theorem texts_inserted (s : TerminatorState) (t : Token) :
    Token.texts (s.settle t.kind).2 = [] ∧ Token.texts (s.insertedBefore t) = [] := by
  have settled (kind : TokenKind) : Token.texts (s.settle kind).2 = [] := by
    unfold settle
    split
    · rfl
    · dsimp only
      split <;> rfl
  refine ⟨settled t.kind, ?_⟩
  rw [insertedBefore, Token.texts_append, settled, closeStatement]
  split <;> rfl

/-- Inserting terminators keeps the texts. -/
theorem texts_run (ts : List Token) (s : TerminatorState) :
    Token.texts (s.run ts) = Token.texts (Token.significant ts) := by
  induction ts generalizing s with
  | nil =>
    rw [run, finish]
    split
    · split <;> rfl
    · rfl
  | cons t rest ih =>
    rw [run_cons, Token.texts_append, ih]
    by_cases newline : t.kind = .newline
    · simp [step_newline s newline, Token.significant, newline, Token.texts]
    · have first : Token.texts (s.step t).2 = Token.texts [t] := by
        by_cases semicolon : t.kind = .semicolon
        · have none := (texts_inserted s t).1
          rw [semicolon] at none
          rw [step_semicolon s semicolon, Token.texts_append, none]
          rfl
        · rw [step_other s newline semicolon, Token.texts_append, (texts_inserted s t).2]
          rfl
      rw [first, ← Token.texts_append]
      simp [Token.significant, newline]

end TerminatorState

namespace Token

@[simp] theorem significant_cons (t : Token) (ts : List Token) :
    significant (t :: ts) = if t.kind = .newline then significant ts else t :: significant ts := by
  by_cases newline : t.kind = .newline <;> simp [significant, newline]

theorem texts_cons (t : Token) (ts : List Token) :
    texts (t :: ts) = (if t.text = [] then [] else [t.text]) ++ texts ts := by
  by_cases silent : t.text = [] <;> simp [texts, silent]

/-- Marking property names keeps the texts. -/
theorem texts_markPropertyNames (ts : List Token) (before : Option TokenKind) (onNewLine : Bool) :
    texts (significant (markPropertyNamesFrom before onNewLine ts)) = texts (significant ts) := by
  induction ts generalizing before onNewLine with
  | nil => rfl
  | cons t rest ih =>
    by_cases newline : t.kind = .newline
    · simp [markPropertyNamesFrom, newline, ih]
    · simp only [markPropertyNamesFrom, if_neg newline]
      split <;>
        simp only [significant_cons, retype, newline, reduceCtorEq, if_false, texts_cons, ih]

/-- Marking the parameters of arrow functions keeps the texts. -/
theorem texts_markArrows (ts : List Token) :
    texts (significant (markArrows ts)) = texts (significant ts) := by
  induction ts with
  | nil => rfl
  | cons t rest ih =>
    rw [markArrows, arrowMark]
    split
    case isTrue opens =>
      simp only [significant_cons, retype, opens.1, reduceCtorEq, if_false, texts_cons, ih]
    case isFalse =>
      by_cases newline : t.kind = .newline
      · simp [newline, ih]
      · simp only [significant_cons, if_neg newline, texts_cons, ih]

theorem texts_refine (ts : List Token) : texts (refine ts) = texts (significant ts) := by
  rw [refine, insertTerminators, TerminatorState.texts_run, markArrowParameters_eq,
    texts_markArrows, markPropertyNames, texts_markPropertyNames]

/-- Every token that is scanned has a text. -/
theorem texts_scan {source : Text} {ts : List Token} (scanned : scan source = .ok ts) :
    texts (significant ts) = (significant ts).map text := by
  refine List.filter_eq_self.mpr ?_
  intro t mem
  obtain ⟨token, found, rfl⟩ := List.mem_map.mp mem
  have spells := spells_of_mem_scan scanned token (List.mem_of_mem_filter found)
  simpa using Lexeme.ne_nil_of_spells spells

end Token

namespace Source

/-- A program without type syntax spells the essence of its source. -/
theorem Reads.spelling {dialect : Dialect} {source : Text} {ts : List Token} {program : Node}
    (reads : Reads dialect source ts program) (untyped : none ∉ program.spelling) :
    program.spelling = (essence ((Token.significant ts).map Token.text)).map some := by
  have lawful := Token.lawful_refine (Token.spells_of_mem_scan reads.scanned)
  have begins : Parse.start.Sound (Token.breaksOperator ts = true) none (Token.refine ts) :=
    ⟨⟨⟨rfl, by simp⟩, trivial⟩, rfl, by simp, by simp⟩
  have tracks : Parse.Tracks Parse.start [] := ⟨trivial, .inr ⟨rfl, by decide⟩⟩
  have spelled := Parse.read?_spelling _ begins lawful tracks reads.parsed
  rw [List.nil_append, Token.texts_refine, Token.texts_scan reads.scanned] at spelled
  exact spelled.resolve_left untyped

end Source

end TypeGloss
