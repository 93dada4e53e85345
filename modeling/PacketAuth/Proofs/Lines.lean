import PacketAuth.Toml.Document
import PacketAuth.Proofs.Numeral

/-! Documents with one statement on each line: the header of a table, or a setting with a whole
number. Such a text is read as the statements that its lines show, in their order. -/
namespace PacketAuth.Toml

/-- A name that needs no quotes. -/
def Bare (name : String) : Prop := name.toList ≠ [] ∧ name.toList.all isBareKeyChar = true

instance (name : String) : Decidable (Bare name) := inferInstanceAs (Decidable (_ ∧ _))

inductive Line where
  | setting (key : String) (n : Int)
  | header (name : String)
  deriving Repr, DecidableEq

namespace Line

def name : Line → String
  | setting key _ => key
  | header name => name

def statement : Line → Statement
  | setting key n => .setting [key] (.integer (some n))
  | header name => .header [name]

/-- How a line is written, with its end. -/
def text : Line → String
  | setting key n => key ++ " = " ++ toString n ++ "\n"
  | header name => "[" ++ name ++ "]\n"

end Line

/-- A text of several lines. -/
def textOf (lines : List Line) : String := String.join (lines.map Line.text)

/-- No mark of the syntax belongs to a bare name. -/
theorem ne_of_isBareKeyChar {c d : Char} (hc : isBareKeyChar c = true)
    (hd : isBareKeyChar d = false) : c ≠ d := by
  rintro rfl
  rw [hc] at hd
  cases hd

theorem Bare.chars {name : String} (h : Bare name) : ∀ c ∈ name.toList, isBareKeyChar c = true :=
  List.all_eq_true.mp h.2

theorem Bare.start {name : String} (h : Bare name) (rest : List Char) :
    ∃ c cs, name.toList ++ rest = c :: cs ∧ isBareKeyChar c = true := by
  obtain ⟨c, cs, hname⟩ := List.exists_cons_of_ne_nil h.1
  exact ⟨c, cs ++ rest, by rw [hname, List.cons_append], h.chars c (by simp [hname])⟩

theorem keyPart_bare {name : String} (h : Bare name) {rest : List Char}
    (stop : ∀ c ∈ rest.head?, isBareKeyChar c = false) :
    keyPart (name.toList ++ rest) = some (name, rest) := by
  obtain ⟨c, cs, start, first⟩ := h.start rest
  have unquoted : c ≠ '"' ∧ c ≠ '\'' :=
    ⟨ne_of_isBareKeyChar first (by decide), ne_of_isBareKeyChar first (by decide)⟩
  have rest_stops : rest.takeWhile isBareKeyChar = [] ∧ rest.dropWhile isBareKeyChar = rest := by
    cases rest with
    | nil => exact ⟨rfl, rfl⟩
    | cons d ds => simp [stop d rfl]
  have run : (c :: cs).takeWhile isBareKeyChar = name.toList := by
    rw [← start, List.takeWhile_append_of_pos h.chars, rest_stops.1, List.append_nil]
  have after : (c :: cs).dropWhile isBareKeyChar = rest := by
    rw [← start, List.dropWhile_append_of_pos h.chars, rest_stops.2]
  have unfolded : keyPart (c :: cs) =
      if ((c :: cs).takeWhile isBareKeyChar).isEmpty then none
      else some (String.ofList ((c :: cs).takeWhile isBareKeyChar),
        (c :: cs).dropWhile isBareKeyChar) := by
    rw [keyPart] <;> simp [unquoted]
  rw [start, unfolded, run, after, if_neg (by simp [h.1]), String.ofList_toList]

/-- A bare name is a key of one part, whatever blanks stand behind it. -/
theorem key_bare {name : String} (h : Bare name) {rest : List Char}
    (stop : ∀ c ∈ rest.head?, isBareKeyChar c = false)
    (no_dot : ∀ c ∈ (skipBlanks rest).head?, c ≠ '.') :
    key (name.toList ++ rest) = some ([name], skipBlanks rest) := by
  have start : skipBlanks (name.toList ++ rest) = name.toList ++ rest := by
    obtain ⟨c, cs, start, first⟩ := h.start rest
    have no_space : c ≠ ' ' := ne_of_isBareKeyChar first (by decide)
    have no_tab : c ≠ '\t' := ne_of_isBareKeyChar first (by decide)
    simp [skipBlanks, start, isBlank, no_space, no_tab]
  rw [key, maxKeyParts, keyParts, start, keyPart_bare h stop]
  simp only [Option.bind_eq_bind, Option.bind_some]
  split
  · exact absurd rfl (no_dot '.' (by simp [*]))
  · rfl

namespace Line

theorem toList_text_setting (key : String) (n : Int) (rest : List Char) :
    (setting key n).text.toList ++ rest =
      key.toList ++ ' ' :: '=' :: ' ' :: (numeral n ++ '\n' :: rest) := by
  rw [text, ← ofList_numeral]
  simp

theorem toList_text_header (name : String) (rest : List Char) :
    (header name).text.toList ++ rest = '[' :: (name.toList ++ ']' :: '\n' :: rest) := by
  simp [text]

/-- A line starts with its name or with a bracket. -/
theorem start {l : Line} (h : Bare l.name) (rest : List Char) :
    ∃ c cs, l.text.toList ++ rest = c :: cs ∧ (isBareKeyChar c = true ∨ c = '[') := by
  cases l with
  | setting key n =>
    have bare : Bare key := h
    obtain ⟨c, cs, start, first⟩ := bare.start (' ' :: '=' :: ' ' :: (numeral n ++ '\n' :: rest))
    exact ⟨c, cs, by rw [toList_text_setting, start], .inl first⟩
  | header name => exact ⟨'[', _, toList_text_header name rest, .inr rfl⟩

end Line

/-- A setting is read off its line, up to the line end. -/
theorem statement_setting {name : String} (h : Bare name) (n : Int) (rest : List Char) :
    statement ((Line.setting name n).text.toList ++ rest) =
      some ((Line.setting name n).statement, '\n' :: rest) := by
  have path : key (name.toList ++ ' ' :: '=' :: ' ' :: (numeral n ++ '\n' :: rest)) =
      some ([name], '=' :: ' ' :: (numeral n ++ '\n' :: rest)) := by
    rw [key_bare h] <;> simp [skipBlanks, isBlank, isBareKeyChar, Char.isAlphanum]
  have trimmed : skipBlanks (' ' :: (numeral n ++ '\n' :: rest)) = numeral n ++ '\n' :: rest := by
    obtain ⟨c, cs, hn, first⟩ := numeral_eq_cons n
    have unblank : isBlank c = false := (Scalar.scalarChar_of_numeral first).2
    rw [hn, List.cons_append, skipBlanks, List.dropWhile_cons_of_pos (by decide),
      List.dropWhile_cons_of_neg (by simp [unblank])]
  obtain ⟨c, cs, start, first⟩ := h.start (' ' :: '=' :: ' ' :: (numeral n ++ '\n' :: rest))
  have no_bracket : c ≠ '[' := ne_of_isBareKeyChar first (by decide)
  rw [start] at path
  rw [Line.toList_text_setting, start]
  rw [statement, path]
  · simp only [Option.bind_eq_bind, Option.bind_some, Scalar.expect, if_true]
    rw [trimmed, value_numeral]
    rfl
  · simp [no_bracket]
  · simp [no_bracket]

theorem statement_header {name : String} (h : Bare name) (rest : List Char) :
    statement ((Line.header name).text.toList ++ rest) =
      some ((Line.header name).statement, '\n' :: rest) := by
  have path : key (name.toList ++ ']' :: '\n' :: rest) = some ([name], ']' :: '\n' :: rest) := by
    rw [key_bare h] <;> simp [skipBlanks, isBlank, isBareKeyChar, Char.isAlphanum]
  obtain ⟨c, cs, start, first⟩ := h.start (']' :: '\n' :: rest)
  have no_bracket : c ≠ '[' := ne_of_isBareKeyChar first (by decide)
  rw [start] at path
  rw [Line.toList_text_header, start]
  rw [statement, path]
  · simp [Scalar.expect, Line.statement]
  · simp [no_bracket]

/-- The statement of a line is read off its text, up to the line end. -/
theorem statement_line {l : Line} (h : Bare l.name) (rest : List Char) :
    statement (l.text.toList ++ rest) = some (l.statement, '\n' :: rest) := by
  cases l with
  | setting key n => exact statement_setting h n rest
  | header name => exact statement_header h rest

/-- A line is one step of reading its text. -/
theorem statements_line {l : Line} (h : Bare l.name) (fuel : Nat) (rest : List Char) :
    statements (fuel + 1) (l.text.toList ++ rest) =
      (statements fuel rest).map (l.statement :: ·) := by
  have stmt := statement_line h rest
  obtain ⟨c, cs, start, first⟩ := Line.start h rest
  have visible : c ≠ ' ' ∧ c ≠ '\t' ∧ c ≠ '\n' ∧ c ≠ '\r' ∧ c ≠ '#' := by
    rcases first with first | rfl
    · and_intros <;> exact ne_of_isBareKeyChar first (by decide)
    · decide
  have trimmed : skipBlanks (c :: cs) = c :: cs := by
    simp [skipBlanks, isBlank, visible]
  have no_end : lineEnd (c :: cs) = none := by
    rw [lineEnd, trimmed]
    split
    · simp_all
    · rw [lineBreak] <;> simp [visible]
  have end_after : lineEnd ('\n' :: rest) = some rest := by
    simp [lineEnd, skipBlanks, isBlank, lineBreak]
  rw [start] at stmt ⊢
  rw [statements, no_end]
  · simp only [trimmed, stmt, Option.bind_eq_bind, Option.bind_some, end_after]
    cases statements fuel rest <;> rfl
  · simp

/-- Reading a text line by line gives its statements in their order. -/
theorem statements_lines (lines : List Line) (h : ∀ l ∈ lines, Bare l.name) (fuel : Nat)
    (enough : lines.length ≤ fuel) :
    statements fuel (lines.flatMap fun l => l.text.toList) = some (lines.map Line.statement) := by
  induction lines generalizing fuel with
  | nil => simp [statements]
  | cons l rest ih =>
    cases fuel with
    | zero => simp at enough
    | succ fuel =>
      rw [List.flatMap_cons, statements_line (h l (by simp)),
        ih (fun x hx => h x (by simp [hx])) fuel (by simpa using enough)]
      rfl

/-- A text has at least as many characters as lines. -/
theorem length_le_textOf (lines : List Line) (h : ∀ l ∈ lines, Bare l.name) :
    lines.length ≤ (lines.flatMap fun l => l.text.toList).length := by
  induction lines with
  | nil => simp
  | cons l rest ih =>
    obtain ⟨c, cs, start, -⟩ := Line.start (h l (by simp)) []
    have first : 1 ≤ l.text.toList.length := by
      rw [← List.append_nil l.text.toList, start]
      simp
    have more := ih fun x hx => h x (by simp [hx])
    rw [List.flatMap_cons, List.length_append, List.length_cons]
    omega

/-- A text of lines describes the table that their statements build. -/
theorem read_textOf (lines : List Line) (h : ∀ l ∈ lines, Bare l.name) :
    read (textOf lines) = Entries.ofStatements? (lines.map Line.statement) := by
  have chars : (textOf lines).toList = lines.flatMap fun l => l.text.toList := by
    rw [textOf, String.toList_join, List.flatMap_map]
  -- no line starts with a mark of the byte order
  have unmarked : ∀ rest, (textOf lines).toList ≠ '\ufeff' :: rest := by
    intro rest same
    rw [chars] at same
    cases lines with
    | nil => cases same
    | cons l others =>
      obtain ⟨c, cs, start, first⟩ :=
        Line.start (h l (by simp)) (others.flatMap fun l => l.text.toList)
      rw [List.flatMap_cons, start] at same
      obtain rfl : c = '\ufeff' := (List.cons.inj same).1
      exact absurd first (by decide)
  have fuel : lines.length ≤ (textOf lines).toList.length + 1 :=
    Nat.le_succ_of_le (chars ▸ length_le_textOf lines h)
  rw [read]
  split
  · exact absurd ‹_› (unmarked _)
  · rw [chars] at fuel ⊢
    rw [statements_lines lines h _ fuel]
    rfl

end PacketAuth.Toml
