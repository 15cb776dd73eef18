import TypeGloss.Proofs.Legible
import TypeGloss.Proofs.RoundTrip

/-!
# Written keys are read back

The key of a type member is written as a word or as a quoted string. The written key is one token,
and the member of a type body that starts with it has the same key again, unless the key holds a
line feed: inside quotes a line feed ends no string, and behind a word it is a token of its own.
-/

namespace TypeGloss

open Lexeme (Spells Stops)

namespace Token

/-- The key that a token stands for where the key of a member is expected: a word is its own key, a
string has the key that it denotes. -/
def keyText? (t : Token) : Option Text :=
  match t.kind with
  | .name | .keyword _ => some t.text
  | .string => (Literal.stringValue t.text).toOption
  | _ => none

/-- A text that is found to be one symbol is scanned as one token. -/
theorem scan_of_symbols {t : Text} {kind : TokenKind} {spelling : Text}
    (found : symbols t = some [plain kind spelling]) :
    ∃ loc, scan t = .ok [⟨kind, spelling, loc⟩] := by
  rw [symbols_eq] at found
  obtain ⟨ts, scanned, alone⟩ := Option.map_eq_some_iff.mp found
  obtain ⟨⟨kind', text', loc⟩, rfl, same⟩ := List.map_eq_singleton_iff.mp alone
  obtain ⟨rfl, rfl⟩ : kind' = kind ∧ text' = spelling := by
    simpa [unplaced, plain] using same
  refine ⟨loc, ?_⟩
  cases outcome : scan t with
  | error => rw [outcome] at scanned; cases scanned
  | ok ts => rw [outcome] at scanned; exact congrArg _ (Option.some.inj scanned)

/-- A scanned text has a symbol for each token. -/
theorem symbols_of_scan {t : Text} {ts : List Token} (scanned : scan t = .ok ts) :
    symbols t = some (ts.map unplaced) := by
  rw [symbols_eq, scanned]
  rfl

/-- A word is one symbol, if what follows cannot be a part of it. -/
theorem symbols_word {t rest : Text} (word : Lexeme.isWordText t = true)
    (stops : ∀ c ∈ rest.head?, Lexeme.isWordPart c = false) :
    symbols (t ++ rest) = (symbols rest).map (plain (Pieces.wordKind t) t :: ·) := by
  have some : t ≠ [] := by
    rintro rfl
    cases word
  have stopsKind : Stops (Pieces.wordKind t) t rest := by
    unfold Pieces.wordKind
    cases Keyword.ofSpelling? t <;> exact stops
  exact symbols_append some (Lexeme.ofText?_append (Pieces.spells_wordKind word) stopsKind)

theorem symbols_string {t : Text} (isString : Lexeme.IsString t) :
    symbols t = some [plain .string t] := by
  have some : t ≠ [] := by
    rintro rfl
    cases isString
  have spells : Spells .string t := isString
  have stops : Stops .string t [] := trivial
  have found := symbols_append some (Lexeme.ofText?_append spells stops)
  rwa [List.append_nil] at found

theorem keyText?_word (t : Text) (loc : Location) :
    keyText? ⟨Pieces.wordKind t, t, loc⟩ = some t := by
  unfold Pieces.wordKind
  cases Keyword.ofSpelling? t <;> rfl

end Token

namespace Key

open Token (scan symbols keyText?)

/-- A key without a line feed is written as one token that stands for it. -/
theorem scan_render {name : Text} (oneLine : .scalar '\n' ∉ name) :
    ∃ token, scan (render name) = .ok [token] ∧ token.keyText? = some name := by
  cases unquoted : isPlain name with
  | true =>
    obtain ⟨word, isWord, same | torn⟩ := word_of_isPlain unquoted
    · subst same
      have found := @Token.symbols_word name [] isWord nofun
      rw [List.append_nil] at found
      obtain ⟨loc, scanned⟩ := Token.scan_of_symbols found
      rw [render, if_pos unquoted]
      exact ⟨_, scanned, Token.keyText?_word name loc⟩
    · exact absurd (torn ▸ List.mem_append_right _ (List.mem_singleton_self _)) oneLine
  | false =>
    have found := Token.symbols_string (isString_render unquoted oneLine)
    obtain ⟨loc, scanned⟩ := Token.scan_of_symbols found
    exact ⟨_, scanned, congrArg Except.toOption (stringValue_render unquoted)⟩

/-- A key with a line feed is not written as one token. -/
theorem scan_render_torn {name : Text} (feed : .scalar '\n' ∈ name) (token : Token) :
    scan (render name) ≠ .ok [token] := by
  intro scanned
  have found := Token.symbols_of_scan scanned
  cases unquoted : isPlain name with
  | true =>
    rw [render, if_pos unquoted] at found
    obtain ⟨word, isWord, rfl | rfl⟩ := word_of_isPlain unquoted
    · exact oneLine_of_isWordText isWord feed
    -- The line feed behind the word is a second token.
    · have feedToken : symbols [.scalar '\n'] = some [Token.plain .newline [.scalar '\n']] := rfl
      rw [Token.symbols_word isWord (by decide), feedToken] at found
      simp at found
  | false =>
    have none := ofText?_torn unquoted feed []
    rw [List.append_nil] at none
    have some : render name ≠ [] := by
      rw [render, if_neg (by simp [unquoted])]
      exact List.cons_ne_nil _ _
    rw [Token.symbols_eq_none some none] at found
    cases found

/-- A program that declares an interface with one member. -/
def declaration (key : MemberKey) : Node :=
  .program .synthetic [.interfaceDeclaration .synthetic (.identifier .synthetic false "I" .absent)
    [.propertySignature .synthetic key (.keywordType .synthetic "any") false]]

theorem fits_declaration {key : MemberKey} (settled : SettledKey key) :
    Grammar.Fits (.rendered False) .program (declaration key) := by
  have isName : Lexeme.IsName "I" := ⟨rfl, rfl⟩
  have type : Grammar.FitsType false .type (.keywordType .synthetic "any") :=
    .single (.word (by decide))
  exact .program (List.forall_mem_singleton.mpr
    (.interface (.mk isName (List.forall_mem_singleton.mpr (.signature settled type)))))

theorem text_declaration (key : MemberKey) :
    Pieces.text (Pieces.node .compact 0 (declaration key)) =
      "interface I\x7b" ++ render key.text ++ ":any;\x7d" := by
  simp [declaration, Pieces.node, Pieces.nodes, Pieces.braced, Pieces.sealed, Pieces.terminated,
    Pieces.space, Pieces.keyword, Pieces.nameOf, Pieces.name, Pieces.leftBrace, Pieces.colon,
    Pieces.semicolon, Pieces.rightBrace, Keyword.spelling, Print.memberHead, Text.ofString]

theorem literalFault?_declaration {key : MemberKey} (settled : SettledKey key) :
    (declaration key).literalFault? = none := by
  cases settled with
  | name => rfl
  | string noWord oneLine =>
    simp [declaration, Node.literalFault?, Node.fold_eq, Node.slots, Node.ownFault?,
      Node.evaluationOrder, Literal.stringFault?, stringValue_render noWord]

/-- A key is written as one token that stands for it exactly if it holds no line feed. A member that
starts with the written key then has that key. -/
theorem render_reads_iff (name : Text) :
    ((∃ token, scan (render name) = .ok [token] ∧ token.keyText? = some name) ↔
      .scalar '\n' ∉ name) ∧
    (.scalar '\n' ∉ name → ∃ program key,
      Source.read .typescript ("interface I\x7b" ++ render name ++ ":any;\x7d") = .ok program ∧
        program.unplaced = declaration key ∧ key.text = name) := by
  refine ⟨⟨?_, scan_render⟩, fun oneLine => ?_⟩
  · rintro ⟨token, scanned, -⟩ feed
    exact scan_render_torn feed token scanned
  · have settled := settledKey_name oneLine
    have same : (MemberKey.settled (.name name)).text = name := MemberKey.text_settled _
    obtain ⟨program, read, again⟩ := (fits_declaration settled).read_text .compact .typescript
      (literalFault?_declaration settled) nofun
    rw [text_declaration, same] at read
    exact ⟨program, _, read, again, same⟩

/-- A key with a quote and a backslash is read back. -/
theorem render_reads_quote :
    (∃ token, scan "'it\\'s \\\\'" = .ok [token] ∧ token.keyText? = some "it's \\") ∧
      ∃ program key, Source.read .typescript "interface I\x7b'it\\'s \\\\':any;\x7d" = .ok program ∧
        program.unplaced = declaration key ∧ key.text = "it's \\" := by
  have oneLine : CodePoint.scalar '\n' ∉ ("it's \\" : Text) := by decide
  have reads := render_reads_iff "it's \\"
  exact ⟨reads.1.mpr oneLine, reads.2 oneLine⟩

/-- A line feed inside a quoted key leaves no token, and one behind a word is a second token. -/
theorem render_reads_feed :
    (¬ ∃ token, scan (render "a\nb") = .ok [token] ∧ token.keyText? = some "a\nb") ∧
      ¬ ∃ token, scan (render "ab\n") = .ok [token] ∧ token.keyText? = some "ab\n" := by
  obtain ⟨fault, refused⟩ : ∃ fault, scan (render "a\nb") = .error fault := ⟨_, rfl⟩
  obtain ⟨word, feed, both⟩ : ∃ word feed, scan (render "ab\n") = .ok [word, feed] := ⟨_, _, rfl⟩
  rw [refused, both]
  exact ⟨by simp, by simp⟩

end Key

end TypeGloss
