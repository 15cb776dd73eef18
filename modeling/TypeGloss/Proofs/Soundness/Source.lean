import TypeGloss.Proofs.Soundness.Program
import TypeGloss.Proofs.Symbols
import TypeGloss.Source.Read

/-!
# Source texts that are read

What is known of a program that was read from a text: the text was scanned, the tokens make up the
program, and the program fits the grammar.
-/

namespace TypeGloss

open Grammar (Fits)

namespace Token

/-- Every token that is scanned is spelled as its kind is. -/
theorem spells_of_mem_scan {t : Text} {ts : List Token} (scanned : scan t = .ok ts) :
    ∀ tok ∈ ts, Lexeme.Spells tok.kind tok.text := by
  have found : symbols t = some (ts.map unplaced) := by rw [symbols_eq, scanned]; rfl
  intro tok mem
  exact spells_of_mem_symbols found tok.unplaced (List.mem_map_of_mem mem)

end Token

namespace Source

/-- How a program is read. -/
structure Reads (dialect : Dialect) (source : Text) (ts : List Token) (program : Node) : Prop where
  scanned : Token.scan source = .ok ts
  parsed : Parse.read? Parse.start (Token.refine ts) = some program
  literals : program.literalFault? = none
  allowed : dialect.allowsTypes = false → firstTypeSyntax? program = none

variable {dialect : Dialect} {source : Text} {program : Node}

theorem check_eq_ok {tree : Node} (checked : check dialect tree = .ok program) :
    program = tree ∧ tree.literalFault? = none ∧
      (dialect.allowsTypes = false → firstTypeSyntax? tree = none) := by
  unfold check at checked
  split at checked
  case h_1 => cases checked
  case h_2 literals =>
  unfold checkDialect at checked
  split at checked
  case h_1 => cases checked
  case h_2 allowed =>
  obtain rfl := Except.ok.inj checked
  exact ⟨rfl, literals, fun types => by simpa [types] using allowed⟩

/-- Every program that is read has tokens that make it up. -/
theorem reads_of_read (read : Source.read dialect source = .ok program) :
    ∃ ts, Reads dialect source ts program := by
  unfold Source.read at read
  cases streamed : tokens source with
  | error e => rw [streamed] at read; cases read
  | ok refined =>
    rw [streamed] at read
    cases parsed : tree refined with
    | error e => simp only [parsed, bind, Except.bind] at read; cases read
    | ok found =>
      simp only [parsed, bind, Except.bind] at read
      obtain ⟨rfl, literals, allowed⟩ := check_eq_ok read
      unfold tokens Token.stream at streamed
      cases scanned : Token.scan source with
      | error e => rw [scanned] at streamed; cases streamed
      | ok ts =>
        rw [scanned] at streamed
        obtain rfl : Token.refine ts = refined := Except.ok.inj streamed
        refine ⟨ts, scanned, ?_, literals, allowed⟩
        unfold tree at parsed
        split at parsed
        case h_1 made =>
          obtain rfl := Except.ok.inj parsed
          exact (Parse.run_eq_ok_iff ..).mp made
        case h_2 => cases parsed

/-- A program that is read fits the grammar. A reserved word stands as an operand only if a line
ends behind an operator. -/
theorem Reads.fits {ts : List Token} (reads : Reads dialect source ts program) :
    Fits (.source (Token.breaksOperator ts = true)) .program program :=
  Parse.program_fits (Token.lawful_refine (Token.spells_of_mem_scan reads.scanned)) reads.parsed

end Source

end TypeGloss
