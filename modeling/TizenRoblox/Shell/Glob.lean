/-
# Pathname expansion

A word of an expansion without quotes that is a pattern stands for the pathnames it
matches, and for itself if there are none. The word is matched component by component:
a component that is a pattern stands for the names its directory lists, any other one
for itself without its backslashes, and what comes out has to exist.

Which names a pattern matches and in which order they come depends on the locale, and
older shells also list `.` and `..`. `Globbing` collects these choices, and what is said
about expansions holds for all of them. `byteGlobbing` is the expansion of a current
shell in a locale of single bytes; equivalence classes and collating symbols are not
interpreted there.
-/

import TizenRoblox.Posix.Tree
import TizenRoblox.Shell.Text

namespace TizenRoblox.Shell.Glob

open TizenRoblox.Foundation TizenRoblox.Posix

def backslash : UInt8 := 92

def openBracket : UInt8 := 91

def closeBracket : UInt8 := 93

def hyphen : UInt8 := 45

def colon : UInt8 := 58

/-- A byte of a pattern, and whether a backslash takes its meaning away. -/
structure Mark where
  byte : UInt8
  quoted : Bool
  deriving DecidableEq

/-- The byte stands in the pattern with its meaning. -/
def Mark.is (mark : Mark) (byte : UInt8) : Bool := mark.byte = byte && !mark.quoted

/-- Take the backslashes out; one at the end stands for itself. -/
def marks : Bytes → List Mark
  | [] => []
  | [byte] => [⟨byte, byte = backslash⟩]
  | byte :: next :: rest =>
    if byte = backslash then ⟨next, true⟩ :: marks rest else ⟨byte, false⟩ :: marks (next :: rest)

/-- There is a star, a question mark, or an opening bracket with a closing one after it. -/
def hasPattern (opened : Bool) : List Mark → Bool
  | [] => false
  | mark :: rest => mark.is star || mark.is question || (opened && mark.is closeBracket) ||
      hasPattern (opened || mark.is openBracket) rest

/-- The component is a pattern. -/
def isPattern (component : Bytes) : Bool := hasPattern false (marks component)

/-- The component without its backslashes. -/
def unquoted (component : Bytes) : Bytes := (marks component).map Mark.byte

/-- Without stars, question marks and opening brackets there is no pattern. -/
theorem isPattern_of_noPattern {component : Bytes}
    (hnone : ∀ byte ∈ component, byte ∉ patternBytes) : isPattern component = false := by
  have hmarks : ∀ mark ∈ marks component, mark.byte ∉ patternBytes := by
    fun_induction marks component <;> simp_all
  rw [isPattern]
  generalize marks component = pattern at hmarks
  induction pattern with
  | nil => rfl
  | cons mark rest ih =>
      have hmark := hmarks mark List.mem_cons_self
      simp only [patternBytes, List.mem_cons, List.not_mem_nil, or_false, not_or] at hmark
      have hrest := ih fun mark hmem => hmarks mark (List.mem_cons_of_mem _ hmem)
      simp [hasPattern, Mark.is, hmark, hrest, openBracket]

/-! ## Matching in a locale of single bytes -/

/-- A member of a bracket expression; a byte is the range from it to itself. -/
inductive Member
  | range (low high : UInt8)
  | characters (name : Bytes)

/-- The classes of characters, by name. -/
def inClass (name : Bytes) (byte : UInt8) : Bool :=
  let upper := 65 ≤ byte && byte ≤ 90
  let lower := 97 ≤ byte && byte ≤ 122
  let digit := 48 ≤ byte && byte ≤ 57
  let graph := 33 ≤ byte && byte ≤ 126
  let alnum := upper || lower || digit
  if name = bytes "alnum" then alnum
  else if name = bytes "alpha" then upper || lower
  else if name = bytes "ascii" then byte < 128
  else if name = bytes "blank" then byte = blank || byte = tab
  else if name = bytes "cntrl" then byte < 32 || byte = 127
  else if name = bytes "digit" then digit
  else if name = bytes "graph" then graph
  else if name = bytes "lower" then lower
  else if name = bytes "print" then graph || byte = blank
  else if name = bytes "punct" then graph && !alnum
  else if name = bytes "space" then byte = blank || (9 ≤ byte && byte ≤ 13)
  else if name = bytes "upper" then upper
  else if name = bytes "word" then alnum || byte = 95
  else if name = bytes "xdigit" then digit || (65 ≤ byte && byte ≤ 70) || (97 ≤ byte && byte ≤ 102)
  else false

def Member.has (byte : UInt8) : Member → Bool
  | .range low high => low ≤ byte && byte ≤ high
  | .characters name => inClass name byte

/-- The name of a class, up to `:]`, and what follows. -/
def className : List Mark → Option (Bytes × List Mark)
  | mark :: next :: rest =>
    if mark.is colon ∧ next.is closeBracket then some ([], rest)
    else (className (next :: rest)).map fun found => (mark.byte :: found.1, found.2)
  | _ => none

/-- The members of a bracket expression, up to the bracket that closes it, and what
follows. Each takes at least one byte, so the fuel of a pattern's length is enough. -/
def membersWith : ℕ → List Mark → Option (List Member × List Mark)
  | 0, _ => none
  | _, [] => none
  | fuel + 1, mark :: rest =>
    let andThen (member : Member) (later : List Mark) :=
      (membersWith fuel later).map fun found => (member :: found.1, found.2)
    let named := if mark.is openBracket ∧ rest.head?.any (·.is colon)
      then className rest.tail else none
    if mark.is closeBracket then some ([], rest)
    else
      match named, rest with
      | some (name, later), _ => andThen (.characters name) later
      | none, between :: last :: later =>
        if between.is hyphen ∧ ¬ last.is closeBracket then
          andThen (.range mark.byte last.byte) later
        else andThen (.range mark.byte mark.byte) rest
      | none, _ => andThen (.range mark.byte mark.byte) rest

/-- A piece of a pattern. -/
inductive Piece
  | anyBytes
  | anyByte
  | oneOf (negated : Bool) (members : List Member)
  | literal (byte : UInt8)

/-- A bracket expression, from what follows its opening bracket. A closing bracket in the
first place is a member. -/
def bracket (inner : List Mark) : Option (Piece × List Mark) :=
  let negated := inner.head?.any fun mark => mark.is 33 || mark.is 94
  let inside := if negated then inner.tail else inner
  let inside := if inside.head?.any (·.is closeBracket)
    then ⟨closeBracket, true⟩ :: inside.tail else inside
  (membersWith (inside.length + 1) inside).map fun found => (.oneOf negated found.1, found.2)

/-- The pieces of a pattern. -/
def piecesWith : ℕ → List Mark → List Piece
  | 0, _ => []
  | _, [] => []
  | fuel + 1, mark :: rest =>
    if mark.is star then .anyBytes :: piecesWith fuel rest
    else if mark.is question then .anyByte :: piecesWith fuel rest
    else
      match if mark.is openBracket then bracket rest else none with
      | some (piece, later) => piece :: piecesWith fuel later
      | none => .literal mark.byte :: piecesWith fuel rest

def Piece.accepts (byte : UInt8) : Piece → Bool
  | .anyBytes => true
  | .anyByte => true
  | .oneOf negated members => (members.any (Member.has byte)) != negated
  | .literal other => byte = other

/-- Some pieces match a name. -/
def matchPieces : List Piece → Bytes → Bool
  | [], name => name.isEmpty
  | .anyBytes :: rest, name => name.tails.any (matchPieces rest)
  | piece :: rest, name =>
    match name with
    | [] => false
    | head :: tail => piece.accepts head && matchPieces rest tail

/-- A pattern matches a name. -/
def matchBytes (pattern name : Bytes) : Bool :=
  matchPieces (piecesWith pattern.length (marks pattern)) name

/-- Marks without backslashes, stars, question marks and brackets are literal. -/
private theorem piecesWith_of_simple {text : Bytes} (hbackslash : backslash ∉ text)
    (hbracket : openBracket ∉ text) :
    piecesWith text.length (marks text) = text.map fun byte =>
      if byte = star then .anyBytes else if byte = question then .anyByte else .literal byte := by
  have hmarks : marks text = text.map fun byte => ⟨byte, false⟩ := by
    fun_induction marks text <;> simp_all [eq_comm]
  rw [hmarks]
  clear hmarks hbackslash
  induction text with
  | nil => rfl
  | cons head tail ih =>
      have hhead : head ≠ openBracket := fun heq => hbracket (heq ▸ List.mem_cons_self)
      have hrest := ih fun hmem => hbracket (List.mem_cons_of_mem _ hmem)
      simp only [List.length_cons, List.map_cons, piecesWith, Mark.is, Bool.not_false,
        Bool.and_true, decide_eq_true_eq, hhead, decide_false, Bool.false_eq_true, if_false, hrest]
      split
      · rfl
      · split <;> rfl

/-- Where the simple matching of patterns is enough, the two are the same. -/
theorem matchBytes_eq_globMatch {pattern : Bytes} (hbackslash : backslash ∉ pattern)
    (hbracket : openBracket ∉ pattern) (name : Bytes) :
    matchBytes pattern name = globMatch pattern name := by
  rw [matchBytes, piecesWith_of_simple hbackslash hbracket]
  clear hbackslash hbracket
  induction pattern generalizing name with
  | nil => rfl
  | cons head tail ih =>
      by_cases hstar : head = star
      · simp only [List.map_cons, hstar, if_true, matchPieces, globMatch]
        exact congrArg _ (funext ih)
      · cases name with
        | nil =>
            rw [List.map_cons, if_neg hstar]
            split <;> simp [matchPieces, globMatch, hstar]
        | cons first rest =>
            simp only [List.map_cons, if_neg hstar, globMatch, ← ih]
            split
            · next hquestion => simp [matchPieces, Piece.accepts, hquestion]
            · next hquestion => simp [matchPieces, Piece.accepts, hquestion, eq_comm]

/-! ## Expansion -/

/-- What locale and version of the shell decide. -/
structure Globbing where
  accepts : Bytes → Name → Bool
  before : Bytes → Bytes → Bool
  listsDots : Bool

/-- A current shell in a locale of single bytes. -/
def byteGlobbing : Globbing := ⟨matchBytes, fun one other => one ≤ other, false⟩

/-- There is something under the name. The empty name names nothing, and a name that ends
in a slash a directory. -/
def pathExists (tree : Tree) (cwd : Path) (text : Bytes) : Bool :=
  text ≠ [] &&
    if text.getLast? = some slash then tree.isDirectory cwd (.ofBytes text)
    else (tree.lstat cwd (.ofBytes text)).isSome || (tree.stat cwd (.ofBytes text)).isSome

namespace Globbing

section Definitions

variable (globbing : Globbing) (tree : Tree) (cwd : Path)

/-- The names that the directory under a pathname lists; the empty one is the working
directory. -/
def listed (directory : Bytes) : List Name :=
  match tree.locate cwd (.ofBytes directory) with
  | none => []
  | some place =>
    if tree.isDir place then
      (if globbing.listsDots then [dot, dotdot] else []) ++ tree.children place
    else []

/-- The pathnames that start with some text and go on with a component. A name that starts
with a dot wants that dot in the pattern. -/
def extend (component text : Bytes) : List Bytes :=
  if isPattern component then
    ((globbing.listed tree cwd text).filter fun name =>
      (name.head? ≠ some 46 || (unquoted component).head? = some 46) &&
        globbing.accepts component name).map (text ++ ·)
  else [text ++ unquoted component]

/-- The pathnames that the components of a word stand for. -/
def candidates : List Bytes → List Bytes
  | [] => []
  | first :: rest => rest.foldl (fun texts component =>
      texts.flatMap fun text => globbing.extend tree cwd component (text ++ [slash]))
      (globbing.extend tree cwd first [])

/-- The pathnames that a word matches, in their order. -/
def matching (word : Bytes) : List Bytes :=
  ((globbing.candidates tree cwd (word.splitOn slash)).filter
    (pathExists tree cwd)).insertionSort fun one other => globbing.before one other

/-- What a word stands for. -/
def expand (word : Bytes) : List Bytes :=
  if (word.splitOn slash).any isPattern ∧ globbing.matching tree cwd word ≠ [] then
    globbing.matching tree cwd word
  else [word]

/-- The words of an expansion without quotes. -/
def words (text : Bytes) : List Bytes := (fieldsOf text).flatMap (globbing.expand tree cwd)

end Definitions

section Laws

variable {globbing : Globbing} {tree : Tree} {cwd : Path}

theorem expand_ne_nil (word : Bytes) : globbing.expand tree cwd word ≠ [] := by
  unfold expand
  split
  · next hmatching => exact hmatching.2
  · exact List.cons_ne_nil _ _

/-- What a word stands for is the word itself, or there is something under the name. -/
theorem mem_expand {word name : Bytes} (hname : name ∈ globbing.expand tree cwd word) :
    name = word ∨ pathExists tree cwd name = true := by
  unfold expand at hname
  split at hname
  · rw [matching, List.mem_insertionSort, List.mem_filter] at hname
    exact Or.inr hname.2
  · exact Or.inl (List.mem_singleton.mp hname)

/-- A word without stars, question marks and brackets stands for itself. -/
theorem expand_of_noPattern {word : Bytes} (hnone : ∀ byte ∈ word, byte ∉ patternBytes) :
    globbing.expand tree cwd word = [word] := by
  have hpatterns : (word.splitOn slash).any isPattern = false := by
    rw [List.any_eq_false]
    intro component hcomponent
    rw [List.splitOn_eq_splitOnP] at hcomponent
    have hplain : isPattern component = false := isPattern_of_noPattern fun byte hbyte =>
      hnone byte (of_mem_splitOnP hcomponent hbyte).1
    simp [hplain]
  simp [expand, hpatterns]

/-- A word that is handed on as one argument: it is a single field, and that stands for the
word alone. -/
def Arrives (globbing : Globbing) (tree : Tree) (cwd : Path) (argument : Bytes) : Prop :=
  ∃ field, fieldsOf argument = [field] ∧ globbing.expand tree cwd field = [argument]

/-- An argument that is not empty, has no blank and no character of a pattern arrives. -/
theorem arrives_of_plain {argument : Bytes} (hnonempty : argument ≠ [])
    (hplain : ∀ byte ∈ argument, byte ∉ fieldSeparators ++ patternBytes) :
    globbing.Arrives tree cwd argument := by
  refine ⟨argument, fieldsOf_of_noSeparator hnonempty fun byte hbyte hmem => ?_, ?_⟩
  · exact hplain byte hbyte (List.mem_append_left _ hmem)
  · exact expand_of_noPattern fun byte hbyte hmem =>
      hplain byte hbyte (List.mem_append_right _ hmem)

/-- A list that is put together from parts for each of its members has one member in
each, if none of the parts is empty. -/
private theorem flatMap_eq_self {Word : Type} {words : List Word} {parts : Word → List Word}
    (hparts : ∀ word ∈ words, parts word ≠ []) (hself : words.flatMap parts = words) :
    ∀ word ∈ words, parts word = [word] := by
  have hlengths : ∀ {rest : List Word}, (∀ word ∈ rest, parts word ≠ []) →
      rest.length ≤ (rest.flatMap parts).length := by
    intro rest hrest
    induction rest with
    | nil => exact Nat.le_refl 0
    | cons first later ih =>
        have hfirst := List.length_pos_iff.mpr (hrest first List.mem_cons_self)
        have hlater := ih fun word hword => hrest word (List.mem_cons_of_mem _ hword)
        rw [List.flatMap_cons, List.length_append, List.length_cons]
        omega
  induction words with
  | nil => exact fun _ hword => nomatch hword
  | cons first later ih =>
      rw [List.flatMap_cons] at hself
      have hlater := hlengths fun word hword => hparts word (List.mem_cons_of_mem _ hword)
      have hone : (parts first).length = 1 := by
        have htotal := congrArg List.length hself
        have hfirst := List.length_pos_iff.mpr (hparts first List.mem_cons_self)
        rw [List.length_append, List.length_cons] at htotal
        omega
      obtain ⟨only, honly⟩ := List.length_eq_one_iff.mp hone
      rw [honly, List.singleton_append, List.cons.injEq] at hself
      obtain ⟨rfl, hrest⟩ := hself
      rw [List.forall_mem_cons]
      exact ⟨honly, ih (fun word hword => hparts word (List.mem_cons_of_mem _ hword)) hrest⟩

/-- Arguments that all arrive are the words of what they are joined to. -/
theorem words_joinArguments {arguments : List Bytes}
    (harrive : ∀ argument ∈ arguments, globbing.Arrives tree cwd argument) :
    globbing.words tree cwd (joinArguments arguments) = arguments := by
  have hparts : ∀ argument ∈ arguments,
      (fieldsOf argument).flatMap (globbing.expand tree cwd) = [argument] := by
    intro argument hmem
    obtain ⟨field, hfields, hexpand⟩ := harrive argument hmem
    rw [hfields, List.flatMap_singleton, hexpand]
  rw [words, fieldsOf_joinArguments, List.flatMap_assoc, List.flatMap_congr hparts,
    List.flatMap_singleton']

/-- If the arguments are the words of what they are joined to, each of them arrives. Only
an argument that is all blanks could come from the field of another one, and then there
is something under that name. -/
theorem arrives_of_words {arguments : List Bytes}
    (hblank : ∀ argument ∈ arguments, fieldsOf argument = [] →
      pathExists tree cwd argument = false)
    (hsame : globbing.words tree cwd (joinArguments arguments) = arguments) :
    ∀ argument ∈ arguments, globbing.Arrives tree cwd argument := by
  rw [words, fieldsOf_joinArguments, List.flatMap_assoc] at hsame
  have hfields : ∀ argument ∈ arguments, fieldsOf argument ≠ [] := by
    intro argument hmem hnone
    have hcame := hmem
    rw [← hsame, List.mem_flatMap] at hcame
    obtain ⟨other, -, hcame⟩ := hcame
    obtain ⟨field, hfield, hcame⟩ := List.mem_flatMap.mp hcame
    rcases mem_expand hcame with rfl | hexists
    · obtain ⟨hnonempty, hplain⟩ := of_mem_fieldsOf hfield
      rw [fieldsOf_of_noSeparator hnonempty hplain] at hnone
      cases hnone
    · rw [hblank argument hmem hnone] at hexists
      cases hexists
  have hparts : ∀ argument ∈ arguments,
      (fieldsOf argument).flatMap (globbing.expand tree cwd) ≠ [] := by
    intro argument hmem hnil
    apply hfields argument hmem
    apply List.eq_nil_iff_forall_not_mem.mpr
    intro field hfield
    exact expand_ne_nil field (List.flatMap_eq_nil_iff.mp hnil field hfield)
  intro argument hmem
  have halone := flatMap_eq_self hparts hsame argument hmem
  cases hsplit : fieldsOf argument with
  | nil => exact absurd hsplit (hfields argument hmem)
  | cons field rest =>
      rw [hsplit, List.flatMap_cons] at halone
      cases rest with
      | nil => exact ⟨field, hsplit, by simpa using halone⟩
      | cons second later =>
          have hfirst := List.length_pos_iff.mpr (@expand_ne_nil globbing tree cwd field)
          have hsecond := List.length_pos_iff.mpr (@expand_ne_nil globbing tree cwd second)
          have htotal := congrArg List.length halone
          rw [List.flatMap_cons, List.length_append, List.length_append,
            List.length_singleton] at htotal
          omega

/-- In an empty tree there is nothing under a name that is all blanks. -/
theorem pathExists_empty {text : Bytes} (hnone : fieldsOf text = []) :
    pathExists ⟨[]⟩ cwd text = false := by
  have hblanks := mem_fieldSeparators_of_fieldsOf hnone
  have hnot : ∀ byte, byte ∉ fieldSeparators → byte ∉ text := fun byte hbyte hmem =>
    hbyte (hblanks byte hmem)
  have hlast : text.getLast? ≠ some slash := fun heq =>
    hnot slash (by decide) (List.mem_of_getLast? heq)
  by_cases hempty : text = []
  · simp [pathExists, hempty]
  · have hparts : Pathname.partsOf text = [text] :=
      Pathname.partsOf_of_noSlash (hnot slash (by decide)) hempty
    have hdots : text ≠ dot ∧ text ≠ dotdot := by
      constructor <;> rintro rfl <;> exact hnot 46 (by decide) (by decide)
    have hlstat : Tree.lstat ⟨[]⟩ cwd (.ofBytes text) = none := by
      rw [Tree.lstat, Option.bind_eq_none_iff]
      exact fun _ _ => rfl
    have hstat : Tree.stat ⟨[]⟩ cwd (.ofBytes text) = none := by
      have hrelative : (Pathname.ofBytes text).absolute = false := by
        have hfirst : text.head? ≠ some slash := fun heq =>
          hnot slash (by decide) (List.mem_of_head? heq)
        simpa [Pathname.ofBytes] using hfirst
      have hlocate : Tree.locate ⟨[]⟩ cwd (.ofBytes text) = some (cwd ++ [text]) := by
        rw [Tree.locate, hrelative, Pathname.ofBytes, hparts]
        simp [Tree.walk, Tree.linkLimit, Tree.walkWith, Posix.Tree.node, hdots]
      rw [Tree.stat, hlocate]
      split <;> simp_all [Posix.Tree.node]
    simp [pathExists, hlast, hlstat, hstat]

/-- Whatever there is, the arguments are the words of what they are joined to, if and only
if whatever there is, each of them arrives. -/
theorem forall_words_joinArguments_iff {arguments : List Bytes} :
    (∀ tree, globbing.words tree cwd (joinArguments arguments) = arguments) ↔
      ∀ tree, ∀ argument ∈ arguments, globbing.Arrives tree cwd argument := by
  constructor
  · intro hsame tree
    apply arrives_of_words (fun argument hmem hnone => ?_) (hsame tree)
    obtain ⟨field, hfield, -⟩ :=
      arrives_of_words (fun _ _ => pathExists_empty) (hsame ⟨[]⟩) argument hmem
    rw [hnone] at hfield
    cases hfield
  · exact fun harrive tree => words_joinArguments (harrive tree)

end Laws

end Globbing

end TizenRoblox.Shell.Glob
