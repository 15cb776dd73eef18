import TypeGloss.Proofs.Lexeme
import TypeGloss.Proofs.Unplaced

/-!
# The tokens of a text, without their places

Where a token stands depends on all that comes before it, its kind and its text do not. So the
tokens of a text are found from any of its parts on when their places are left out.
-/

namespace TypeGloss

namespace Token

open Lexeme (Spells Stops ofText?)

/-- A token that stands nowhere. -/
def plain (kind : TokenKind) (text : Text) : Token := ⟨kind, text, .synthetic⟩

/-- The token of a lexeme at the start of a text; blanks and comments have none. -/
def ofLexeme (lexeme : Lexeme) (t : Text) : List Token :=
  (lexeme.kind?.map fun kind => plain kind (t.take lexeme.length)).toList

/-- The tokens of a text, without their places, or nothing if some code point starts no lexeme. The
first `skip` code points belong to the lexeme read last. -/
def symbolsFrom (skip : Nat) : Text → Option (List Token)
  | [] => some []
  | c :: rest =>
    match skip with
    | skip + 1 => symbolsFrom skip rest
    | 0 =>
      match ofText? (c :: rest) with
      | none => none
      | some lexeme =>
        (symbolsFrom (lexeme.length - 1) rest).map (ofLexeme lexeme (c :: rest) ++ ·)

/-- The tokens of a text without their places. -/
def symbols (t : Text) : Option (List Token) := symbolsFrom 0 t

private theorem symbolsFrom_eq (t : Text) (here : Location) (skip : Nat) (done : List Token) :
    (scanFrom here skip done t).toOption.map (List.map unplaced) =
      (symbolsFrom skip t).map (done.reverse.map unplaced ++ ·) := by
  induction t generalizing here skip done with
  | nil => simp [scanFrom, symbolsFrom, Except.toOption]
  | cons c rest ih =>
    cases skip with
    | succ skip => exact ih (here.after c) skip done
    | zero =>
      rw [scanFrom, symbolsFrom]
      cases ofText? (c :: rest) with
      | none => rfl
      | some lexeme =>
        simp only [ih, Option.map_map]
        congr 1
        funext later
        cases kind : lexeme.kind? <;>
          simp [ofLexeme, kind, plain, Token.unplaced]

/-- The tokens of a text, with or without their places. -/
theorem symbols_eq (t : Text) : symbols t = (scan t).toOption.map (List.map unplaced) := by
  have eq := symbolsFrom_eq t .first 0 []
  simp only [List.reverse_nil, List.map_nil, List.nil_append, Option.map_id'] at eq
  exact eq.symm

private theorem symbolsFrom_drop (t : Text) (n : Nat) : symbolsFrom n t = symbols (t.drop n) := by
  induction t generalizing n with
  | nil => simp [symbols, symbolsFrom]
  | cons c rest ih =>
    cases n with
    | zero => rfl
    | succ n => exact ih n

/-- The tokens of a text that starts with a lexeme. -/
theorem symbols_append {t rest : Text} {kind? : Option TokenKind} (some : t ≠ [])
    (found : ofText? (t ++ rest) = .some ⟨kind?, t.length⟩) :
    symbols (t ++ rest) =
      (symbols rest).map ((kind?.map fun kind => plain kind t).toList ++ ·) := by
  obtain ⟨c, t, rfl⟩ := List.exists_cons_of_ne_nil some
  rw [List.cons_append] at found ⊢
  rw [symbols, symbolsFrom, found]
  simp only [List.length_cons, Nat.add_sub_cancel, symbolsFrom_drop, List.drop_left, ofLexeme,
    ← List.cons_append]
  congr 1
  funext later
  cases kind? <;> simp

/-- A text that starts with no lexeme has no tokens. -/
theorem symbols_eq_none {t : Text} (some : t ≠ []) (none : ofText? t = none) :
    symbols t = .none := by
  obtain ⟨c, t, rfl⟩ := List.exists_cons_of_ne_nil some
  rw [symbols, symbolsFrom, none]

private theorem symbols_cons_blank {c : CodePoint} (blank : Lexeme.isBlank c = true) (rest : Text) :
    symbols (c :: rest) = symbols (rest.drop (Lexeme.runLength Lexeme.isBlank rest)) := by
  have run : Lexeme.runLength Lexeme.isBlank (c :: rest) =
      Lexeme.runLength Lexeme.isBlank rest + 1 := by
    simp [Lexeme.runLength, blank]
  rw [symbols, symbolsFrom, Lexeme.ofText?_blank blank, run]
  simp only [Nat.add_sub_cancel, symbolsFrom_drop, ofLexeme, Option.map_none, Option.toList_none,
    List.nil_append, Option.map_id']

private theorem symbols_drop_blanks (t : Text) :
    symbols (t.drop (Lexeme.runLength Lexeme.isBlank t)) = symbols t := by
  match t with
  | [] => rfl
  | c :: rest =>
    cases blank : Lexeme.isBlank c with
    | false => simp [Lexeme.runLength, blank]
    | true =>
      rw [symbols_cons_blank blank]
      simp [Lexeme.runLength, blank]

/-- A blank adds no token. -/
theorem symbols_blank (rest : Text) : symbols (.scalar ' ' :: rest) = symbols rest := by
  rw [symbols_cons_blank rfl, symbols_drop_blanks]

/-- Every token of a text is spelled as its kind is. -/
theorem spells_of_mem_symbols {t : Text} {ts : List Token} (found : symbols t = some ts) :
    ∀ tok ∈ ts, Spells tok.kind tok.text := by
  have all : ∀ t skip ts, symbolsFrom skip t = some ts → ∀ tok ∈ ts, Spells tok.kind tok.text := by
    intro t
    induction t with
    | nil =>
      rintro skip ts found tok mem
      obtain rfl : [] = ts := by simpa [symbolsFrom] using found
      cases mem
    | cons c rest ih =>
      intro skip ts found tok mem
      cases skip with
      | succ skip => exact ih skip ts found tok mem
      | zero =>
        rw [symbolsFrom] at found
        split at found
        · cases found
        · rename_i lexeme lexemeFound
          obtain ⟨later, foundLater, rfl⟩ := Option.map_eq_some_iff.mp found
          rcases List.mem_append.mp mem with mem | mem
          · obtain ⟨kind?, length⟩ := lexeme
            cases kind? with
            | none => simp [ofLexeme] at mem
            | some kind =>
              obtain rfl : tok = plain kind ((c :: rest).take length) := by
                simpa [ofLexeme] using mem
              exact (Lexeme.spells_of_ofText? lexemeFound).1
          · exact ih _ later foundLater tok mem
  exact all t 0 ts found

end Token

end TypeGloss
