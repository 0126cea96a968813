/-
# Pathnames

A pathname is what a program hands to the kernel: absolute or not, and a
sequence of components. Repeated and trailing slashes carry no meaning, so they
are gone once a byte string has been read as a pathname; `.` and `..` are
components like any other until a file tree interprets them.
-/

import TizenRoblox.Foundation.Bytes

namespace TizenRoblox.Posix

open TizenRoblox.Foundation

/-- One component of a pathname. -/
abbrev Name := Bytes

/-- A location in a file tree: the names leading from the root, none of them a
symbolic link. -/
abbrev Path := List Name

instance (place : Path) (places : List Path) : Decidable (place ∈ places) :=
  decidable_of_iff (places.contains place = true) List.contains_iff_mem

/-- A pathname as the kernel reads it. -/
structure Pathname where
  absolute : Bool
  parts : List Name
  deriving DecidableEq

def dot : Name := bytes "."

def dotdot : Name := bytes ".."

namespace Pathname

/-- The nonempty components of a byte string. -/
def partsOf (text : Bytes) : List Name := (text.splitOn slash).filter (· ≠ [])

/-- Read a byte string as a pathname. -/
def ofBytes (text : Bytes) : Pathname where
  absolute := text.head? = some slash
  parts := partsOf text

/-- The pathname of an entry of a directory. -/
def child (directory : Pathname) (name : Name) : Pathname :=
  { directory with parts := directory.parts ++ [name] }

/-- The absolute pathname of a location. -/
def ofPath (path : Path) : Pathname where
  absolute := true
  parts := path

@[simp]
theorem partsOf_nil : partsOf [] = [] := by decide

/-- A slash separates components wherever it stands. -/
theorem partsOf_append_slash (front back : Bytes) :
    partsOf (front ++ slash :: back) = partsOf front ++ partsOf back := by
  simp [partsOf, List.splitOn_append_cons_self]

/-- A byte string without a slash is at most one component. -/
theorem partsOf_of_noSlash {name : Bytes} (hslash : slash ∉ name) (hname : name ≠ []) :
    partsOf name = [name] := by
  simp [partsOf, List.splitOn_eq_singleton hslash, hname]

/-- `"${DIR}/${NAME}"` names the entry `NAME` of the directory. -/
theorem ofBytes_append_slash {directory name : Bytes} (hdirectory : directory ≠ [])
    (hslash : slash ∉ name) (hname : name ≠ []) :
    ofBytes (directory ++ slash :: name) = (ofBytes directory).child name := by
  have hhead : (directory ++ slash :: name).head? = directory.head? :=
    List.head?_append_of_ne_nil directory hdirectory
  simp only [ofBytes, child, hhead, partsOf_append_slash, partsOf_of_noSlash hslash hname]

/-- Entries of one name are the same only in the same directory. -/
theorem child_inj {one other : Pathname} {name : Name} :
    one.child name = other.child name ↔ one = other := by
  cases one
  cases other
  simp [child]

/-- The components of a byte string hold all its bytes but the slashes. -/
theorem flatten_partsOf (text : Bytes) : (partsOf text).flatten = text.filter (· ≠ slash) := by
  by_cases hslash : slash ∈ text
  · obtain ⟨front, back, hsplit⟩ := List.append_of_mem hslash
    have hfront : front.length < text.length := by simp [hsplit]
    have hback : back.length < text.length := by simp [hsplit]; omega
    rw [hsplit, partsOf_append_slash, List.flatten_append, flatten_partsOf front,
      flatten_partsOf back]
    simp
  · have hself : text.filter (· ≠ slash) = text := by
      rw [List.filter_eq_self]
      intro byte hbyte
      have hne : byte ≠ slash := fun heq => hslash (heq ▸ hbyte)
      simpa using hne
    rw [hself]
    by_cases hempty : text = []
    · simp [hempty]
    · rw [partsOf_of_noSlash hslash hempty, List.flatten_singleton]
termination_by text.length

/-- A name that does not end in a slash is another name once it is cut. -/
theorem length_le_of_partsOf_take {text : Bytes} {size : ℕ}
    (hlast : text.getLast? ≠ some slash) (htake : partsOf (text.take size) = partsOf text) :
    text.length ≤ size := by
  have hfilter : (text.take size).filter (· ≠ slash) = text.filter (· ≠ slash) := by
    rw [← flatten_partsOf, ← flatten_partsOf, htake]
  by_contra hlong
  have hsplit : text.filter (· ≠ slash) =
      (text.take size).filter (· ≠ slash) ++ (text.drop size).filter (· ≠ slash) := by
    rw [← List.filter_append, List.take_append_drop]
  rw [hfilter, List.self_eq_append_right, List.filter_eq_nil_iff] at hsplit
  have hrest : text.drop size ≠ [] := by simp; omega
  have hbyte := hsplit _ (List.getLast_mem hrest)
  have hsame : (text.drop size).getLast? = text.getLast? := by
    rw [List.getLast?_drop, if_neg hlong]
  apply hlast
  rw [← hsame, List.getLast?_eq_some_getLast hrest]
  simpa using hbyte

end Pathname

end TizenRoblox.Posix
