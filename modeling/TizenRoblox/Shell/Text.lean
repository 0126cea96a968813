/-
# What the shell does to text

Command substitution, `echo` and `read -r` pass text between a script and the
files it keeps, and each of them changes it: NUL bytes and trailing newlines are
dropped, a newline is added, blanks at the ends are stripped. The builtin `echo`
of bash also takes an argument that looks like one of its options for that option,
and prints nothing of it.

An expansion without quotes is split into words at blanks, and a word with pattern
characters stands for the names it matches, if there are any. Bracket expressions
and backslashes are not interpreted here: `IsPlainWord` singles out the names for
which nothing of all this matters.

`grep`, `cut`, `head` and `awk` take text line by line. Of the patterns of `grep`, only
literal bytes and dots are interpreted here.
-/

import Mathlib.Data.List.DropRight
import TizenRoblox.Foundation.Bytes

namespace TizenRoblox.Shell

open TizenRoblox.Foundation

/-- `$(command)`, from what the command prints. -/
def commandSubstitution (output : Bytes) : Bytes :=
  (output.filter (· ≠ nul)).rdropWhile (· = newline)

/-- The letters that `echo` accepts after a dash: `n`, `e` and `E`. -/
def echoLetters : Bytes := bytes "neE"

/-- `echo` takes the word for options. -/
def isEchoOption (word : Bytes) : Bool :=
  word.head? = some 45 && word.tail ≠ [] && word.tail.all (· ∈ echoLetters)

/-- What `echo "${WORD}"` prints. -/
def echoOutput (word : Bytes) : Bytes :=
  if isEchoOption word then if 110 ∈ word then [] else [newline]
  else word ++ [newline]

/-- The bytes of the default `IFS` that can occur within a line. -/
def isBlank (byte : UInt8) : Bool := byte = blank || byte = tab

/-- What `read -r NAME` stores of an input: the first line, without the blanks at
its ends. -/
def readLine (input : Bytes) : Bytes :=
  ((input.takeWhile (· ≠ newline)).dropWhile isBlank).rdropWhile isBlank

/-- `"${@}"` where only one word is expected: the arguments, joined by blanks. -/
def joinArguments (arguments : List Bytes) : Bytes := [blank].intercalate arguments

/-- Text without NUL bytes and newlines passes through unchanged. -/
theorem commandSubstitution_of_plain {output : Bytes} (hnul : nul ∉ output)
    (hnewline : newline ∉ output) : commandSubstitution output = output := by
  have hfilter : output.filter (· ≠ nul) = output := by
    rw [List.filter_eq_self]
    intro byte hbyte
    have hne : byte ≠ nul := fun heq => hnul (heq ▸ hbyte)
    simpa using hne
  rw [commandSubstitution, hfilter, List.rdropWhile_eq_self_iff]
  intro hnonempty
  have hne : output.getLast hnonempty ≠ newline :=
    fun heq => hnewline (heq ▸ List.getLast_mem hnonempty)
  simpa using hne

/-- A byte that is neither NUL nor a newline is never lost. -/
theorem mem_commandSubstitution {output : Bytes} {byte : UInt8} (hbyte : byte ∈ output)
    (hnul : byte ≠ nul) (hnewline : byte ≠ newline) : byte ∈ commandSubstitution output := by
  have hkept : byte ∈ output.filter (· ≠ nul) := by simp [hbyte, hnul]
  rw [← List.rdropWhile_append_rtakeWhile (p := (· = newline))
    (l := output.filter (· ≠ nul))] at hkept
  rcases List.mem_append.mp hkept with hfront | hend
  · exact hfront
  · exact absurd (by simpa using List.mem_rtakeWhile_imp hend) hnewline

/-- The newline that `echo` adds is not read back. -/
theorem commandSubstitution_echo {output : Bytes} (hnul : nul ∉ output)
    (hnewline : newline ∉ output) : commandSubstitution (output ++ [newline]) = output := by
  have hplain := commandSubstitution_of_plain hnul hnewline
  have hkept : [newline].filter (· ≠ nul) = [newline] := by decide
  rw [commandSubstitution, List.filter_append, hkept, List.rdropWhile_concat_pos _ _ _ (by simp)]
  exact hplain

/-- `read -r` only takes bytes away. -/
theorem readLine_sublist (input : Bytes) : (readLine input).Sublist input :=
  ((List.rdropWhile_prefix _ _).sublist.trans (List.dropWhile_sublist _)).trans
    (List.takeWhile_sublist _)

/-- Options print at most a newline. -/
theorem echoOutput_of_option {word : Bytes} (hoption : isEchoOption word = true) :
    echoOutput word = [] ∨ echoOutput word = [newline] := by
  unfold echoOutput
  rw [if_pos hoption]
  split
  · exact Or.inl rfl
  · exact Or.inr rfl

theorem echoOutput_of_word {word : Bytes} (hoption : isEchoOption word = false) :
    echoOutput word = word ++ [newline] := by
  simp [echoOutput, hoption]

/-- No option of `echo` has a slash. -/
theorem isEchoOption_of_slash {word : Bytes} (hslash : slash ∈ word) :
    isEchoOption word = false := by
  cases word with
  | nil => rfl
  | cons head tail =>
      by_contra hoption
      simp only [isEchoOption, Bool.not_eq_false, Bool.and_eq_true, List.all_eq_true,
        decide_eq_true_eq, List.head?_cons, List.tail_cons, Option.some.injEq] at hoption
      rcases List.mem_cons.mp hslash with hhead | htail
      · exact absurd (hhead.trans hoption.1.1) (by decide)
      · exact absurd (hoption.2 slash htail) (by decide)

theorem nul_notMem_echoOutput {word : Bytes} (hnul : nul ∉ word) : nul ∉ echoOutput word := by
  cases hoption : isEchoOption word with
  | true => rcases echoOutput_of_option hoption with hout | hout <;> simp [hout, nul, newline]
  | false =>
      rw [echoOutput_of_word hoption]
      simpa [nul, newline] using hnul

/-! ## Expansion without quotes -/

def star : UInt8 := 42

def question : UInt8 := 63

/-- The bytes of the default `IFS`. -/
def fieldSeparators : Bytes := [blank, tab, newline]

/-- The bytes that make a word a pattern: `*`, `?` and `[`. -/
def patternBytes : Bytes := [star, question, 91]

/-- The words of an expansion. -/
def fieldsOf (text : Bytes) : List Bytes :=
  (text.splitOnP (· ∈ fieldSeparators)).filter (· ≠ [])

/-- A pattern matches a name. -/
def globMatch : Bytes → Bytes → Bool
  | [], name => name.isEmpty
  | byte :: rest, name =>
    if byte = star then name.tails.any (globMatch rest)
    else
      match name with
      | [] => false
      | head :: tail => (byte = question || byte = head) && globMatch rest tail

/-- The names a word stands for: those that the pattern matches, in their order, and
the word itself if there are none. A name that starts with a dot wants that dot in
the pattern. -/
def expandWord (names : List Bytes) (word : Bytes) : List Bytes :=
  let matched := names.filter fun name =>
    (name.head? ≠ some 46 || word.head? = some 46) && globMatch word name
  if word.any (· ∈ patternBytes) ∧ matched ≠ [] then matched else [word]

/-- What the substitution of `echo ${WORD}`, without quotes, gives. -/
def echoWords (names : List Bytes) (text : Bytes) : Bytes :=
  joinArguments (((fieldsOf text).flatMap (expandWord names)).dropWhile isEchoOption)

/-- A name that no expansion changes and no command takes for an option. -/
def IsPlainWord (name : Bytes) : Prop :=
  name ≠ [] ∧ name.head? ≠ some 45 ∧ ∀ byte ∈ name, byte ∉ 92 :: fieldSeparators ++ patternBytes

instance (name : Bytes) : Decidable (IsPlainWord name) :=
  inferInstanceAs (Decidable (_ ∧ _ ∧ _))

/-- A text without separators is one field, if it is not empty. -/
theorem fieldsOf_of_noSeparator {text : Bytes} (hnonempty : text ≠ [])
    (hnone : ∀ byte ∈ text, byte ∉ fieldSeparators) : fieldsOf text = [text] := by
  have hsplit : text.splitOnP (· ∈ fieldSeparators) = [text] := by
    apply List.splitOnP_eq_singleton
    intro byte hbyte
    simpa using hnone byte hbyte
  simp [fieldsOf, hsplit, hnonempty]

/-- What stands between separators consists of the other bytes of the text. -/
theorem of_mem_splitOnP {separates : UInt8 → Bool} {text part : Bytes} {byte : UInt8}
    (hpart : part ∈ text.splitOnP separates) (hbyte : byte ∈ part) :
    byte ∈ text ∧ separates byte = false := by
  induction text generalizing part with
  | nil =>
      rw [List.splitOnP_nil, List.mem_singleton] at hpart
      cases hpart ▸ hbyte
  | cons head tail ih =>
      have hlater : ∀ {other : Bytes}, other ∈ tail.splitOnP separates → byte ∈ other →
          byte ∈ head :: tail ∧ separates byte = false := fun hother hmem =>
        ⟨List.mem_cons_of_mem _ (ih hother hmem).1, (ih hother hmem).2⟩
      rw [List.splitOnP_cons_eq_if_modifyHead] at hpart
      split at hpart
      · rcases List.mem_cons.mp hpart with rfl | hrest
        · cases hbyte
        · exact hlater hrest hbyte
      · next hhead =>
          cases hsplit : tail.splitOnP separates with
          | nil => exact absurd hsplit (List.splitOnP_ne_nil _ _)
          | cons first rest =>
              rw [hsplit] at hpart hlater
              rcases List.mem_cons.mp hpart with rfl | hrest
              · rcases List.mem_cons.mp hbyte with rfl | hmem
                · exact ⟨List.mem_cons_self, by simpa using hhead⟩
                · exact hlater List.mem_cons_self hmem
              · exact hlater (List.mem_cons_of_mem _ hrest) hbyte

/-- A field is not empty, and has no separator. -/
theorem of_mem_fieldsOf {text field : Bytes} (hfield : field ∈ fieldsOf text) :
    field ≠ [] ∧ ∀ byte ∈ field, byte ∉ fieldSeparators := by
  rw [fieldsOf, List.mem_filter] at hfield
  exact ⟨by simpa using hfield.2, fun byte hbyte => by
    simpa using (of_mem_splitOnP hfield.1 hbyte).2⟩

/-- A text without fields has separators only. -/
theorem mem_fieldSeparators_of_fieldsOf {text : Bytes} (hnone : fieldsOf text = []) :
    ∀ byte ∈ text, byte ∈ fieldSeparators := by
  induction text with
  | nil => exact fun _ hbyte => nomatch hbyte
  | cons head tail ih =>
      rw [fieldsOf, List.splitOnP_cons_eq_if_modifyHead] at hnone
      split at hnone
      · next hhead =>
          exact List.forall_mem_cons.mpr
            ⟨by simpa using hhead, ih (by simpa [fieldsOf] using hnone)⟩
      · cases hsplit : tail.splitOnP (· ∈ fieldSeparators) with
        | nil => exact absurd hsplit (List.splitOnP_ne_nil _ _)
        | cons first rest => simp [hsplit] at hnone

/-- The fields of arguments that are joined are those of each argument. -/
theorem fieldsOf_joinArguments (arguments : List Bytes) :
    fieldsOf (joinArguments arguments) = arguments.flatMap fieldsOf := by
  induction arguments with
  | nil => decide
  | cons first rest ih =>
      cases rest with
      | nil => simp [joinArguments]
      | cons second later =>
          have hjoin : joinArguments (first :: second :: later) =
              first ++ blank :: joinArguments (second :: later) := by
            simp [joinArguments, List.intercalate_cons_cons]
          rw [hjoin, List.flatMap_cons, ← ih, fieldsOf,
            List.splitOnP_append_cons _ _ (by decide), List.filter_append]
          rfl

theorem IsPlainWord.fieldsOf {name : Bytes} (hplain : IsPlainWord name) :
    fieldsOf name = [name] := by
  apply fieldsOf_of_noSeparator hplain.1
  intro byte hbyte
  have hnot := hplain.2.2 byte hbyte
  simp only [List.cons_append, List.mem_cons, List.mem_append, not_or] at hnot
  exact hnot.2.1

theorem IsPlainWord.expandWord {name : Bytes} (hplain : IsPlainWord name) (names : List Bytes) :
    expandWord names name = [name] := by
  have hnone : name.any (· ∈ patternBytes) = false := by
    rw [List.any_eq_false]
    intro byte hbyte
    have hnot := hplain.2.2 byte hbyte
    simp only [List.cons_append, List.mem_cons, List.mem_append, not_or] at hnot
    simpa using hnot.2.2
  simp [Shell.expandWord, hnone]

/-- A plain word is echoed as it is. -/
theorem IsPlainWord.echoWords {name : Bytes} (hplain : IsPlainWord name) (names : List Bytes) :
    echoWords names name = name := by
  have hoption : isEchoOption name = false := by
    simp [isEchoOption, hplain.2.1]
  simp [Shell.echoWords, hplain.fieldsOf, hplain.expandWord names, hoption, joinArguments]

example : echoWords [bytes "a.so.1", bytes "b.so.1"] (bytes "-n  *.so.?  c") =
    bytes "a.so.1 b.so.1 c" := by decide

example : echoOutput (bytes "-n") = [] ∧ echoOutput (bytes "-Ee") = [newline] ∧
    echoOutput (bytes "-") = bytes "-\n" := by decide

example : readLine (bytes " a b\t\nrest") = bytes "a b" := by decide

/-! ## Filters -/

/-- A byte of a basic regular expression that stands for any byte. -/
def anyByte : UInt8 := 46

/-- A basic regular expression of literal bytes and dots matches at the start. -/
def matchesAt : Bytes → Bytes → Bool
  | [], _ => true
  | _ :: _, [] => false
  | byte :: rest, head :: tail => (byte = anyByte || byte = head) && matchesAt rest tail

/-- `grep pattern` lets the line through. -/
def grepMatches (pattern line : Bytes) : Bool := line.tails.any (matchesAt pattern)

/-- `awk '{print $NF}'`: the last field of a line, or a line without fields as it is. -/
def lastField (line : Bytes) : Bytes :=
  let trimmed := line.rdropWhile (· ∈ fieldSeparators)
  if trimmed = [] then line else trimmed.rtakeWhile (· ∉ fieldSeparators)

/-- The lines of a text; the last one may lack its newline. -/
def linesOf (text : Bytes) : List Bytes :=
  let pieces := text.splitOnP (· = newline)
  if pieces.getLast? = some [] then pieces.dropLast else pieces

/-- `head -1`, up to the newline. -/
def firstLine (text : Bytes) : Bytes := text.takeWhile (· ≠ newline)

/-- A field of a line as `cut` counts them, from one; a line without delimiters is taken whole. -/
def cutField (delimiter : UInt8) (field : ℕ) (line : Bytes) : Bytes :=
  if delimiter ∈ line then (line.splitOnP (· = delimiter)).getD (field - 1) [] else line

/-- `cut -d delimiter -f field` -/
def cut (delimiter : UInt8) (field : ℕ) (text : Bytes) : Bytes :=
  (linesOf text).flatMap fun line => cutField delimiter field line ++ [newline]

theorem splitOnP_of_notMem {separator : UInt8} {text : Bytes} (hnone : separator ∉ text) :
    text.splitOnP (· = separator) = [text] := by
  apply List.splitOnP_eq_singleton
  intro byte hbyte
  have hne : byte ≠ separator := fun heq => hnone (heq ▸ hbyte)
  simpa using hne

/-- A separator with nothing of its kind before it ends the first part. -/
theorem splitOnP_append_separator {separator : UInt8} {front back : Bytes}
    (hfront : separator ∉ front) :
    (front ++ separator :: back).splitOnP (· = separator) =
      front :: back.splitOnP (· = separator) := by
  rw [List.splitOnP_append_cons _ _ (by simp), splitOnP_of_notMem hfront]
  rfl

theorem linesOf_line {line : Bytes} (hline : newline ∉ line) :
    linesOf (line ++ [newline]) = [line] := by
  have hpieces : (line ++ [newline]).splitOnP (· = newline) = [line, []] := by
    rw [splitOnP_append_separator hline, List.splitOnP_nil]
  simp [linesOf, hpieces]

/-- The first of two fields. -/
theorem cutField_one {delimiter : UInt8} {first second : Bytes} (hfirst : delimiter ∉ first) :
    cutField delimiter 1 (first ++ delimiter :: second) = first := by
  simp [cutField, splitOnP_append_separator hfirst]

/-- The second of two fields. -/
theorem cutField_two {delimiter : UInt8} {first second : Bytes} (hfirst : delimiter ∉ first)
    (hsecond : delimiter ∉ second) :
    cutField delimiter 2 (first ++ delimiter :: second) = second := by
  simp [cutField, splitOnP_append_separator hfirst, splitOnP_of_notMem hsecond]

theorem cut_line {line : Bytes} (delimiter : UInt8) (field : ℕ) (hline : newline ∉ line) :
    cut delimiter field (line ++ [newline]) = cutField delimiter field line ++ [newline] := by
  simp [cut, linesOf_line hline]

/-- The literal bytes of a pattern occur where it matches. -/
theorem mem_of_matchesAt {pattern text : Bytes} {byte : UInt8} (hbyte : byte ∈ pattern)
    (hliteral : byte ≠ anyByte) (hmatches : matchesAt pattern text = true) : byte ∈ text := by
  induction pattern generalizing text with
  | nil => cases hbyte
  | cons first rest ih =>
      cases text with
      | nil => cases hmatches
      | cons head tail =>
          simp only [matchesAt, Bool.and_eq_true, Bool.or_eq_true, decide_eq_true_eq] at hmatches
          obtain ⟨hfirst, hrest⟩ := hmatches
          rcases List.mem_cons.mp hbyte with rfl | hbyte
          · rcases hfirst with hany | rfl
            · exact absurd hany hliteral
            · exact List.mem_cons_self
          · exact List.mem_cons_of_mem _ (ih hbyte hrest)

theorem mem_of_grepMatches {pattern line : Bytes} {byte : UInt8} (hbyte : byte ∈ pattern)
    (hliteral : byte ≠ anyByte) (hmatches : grepMatches pattern line = true) : byte ∈ line := by
  obtain ⟨text, htail, hmatches⟩ := List.any_eq_true.mp hmatches
  have hsuffix : text <:+ line := (List.mem_tails _ _).mp htail
  exact hsuffix.subset (mem_of_matchesAt hbyte hliteral hmatches)

/-- A line with a byte that separates no fields has a last field. -/
theorem lastField_ne_nil {line : Bytes} {byte : UInt8} (hbyte : byte ∈ line)
    (hfield : byte ∉ fieldSeparators) : lastField line ≠ [] := by
  have htrimmed : line.rdropWhile (· ∈ fieldSeparators) ≠ [] := by
    intro hnil
    rw [List.rdropWhile_eq_nil_iff] at hnil
    exact hfield (by simpa using hnil byte hbyte)
  have hlast := List.rdropWhile_last_not (fun byte => decide (byte ∈ fieldSeparators)) line htrimmed
  simp only [lastField, if_neg htrimmed]
  rw [ne_eq, List.rtakeWhile_eq_nil_iff]
  intro hall
  exact hall htrimmed (by simpa using hlast)

theorem lastField_subset (line : Bytes) : lastField line ⊆ line := by
  simp only [lastField]
  split
  · exact List.Subset.refl _
  · intro byte hbyte
    exact (List.rdropWhile_prefix _ _).subset ((List.rtakeWhile_suffix _ _).subset hbyte)

end TizenRoblox.Shell
