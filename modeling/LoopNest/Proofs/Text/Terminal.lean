import Mathlib.Data.List.Basic

/-! What a terminal shows of a text. An escape sequence sets the colour of what comes after it and is
not shown itself; everything else is shown as it is. -/

namespace LoopNest

def escape : Char := '\x1b'

namespace Terminal

mutual

/-- The characters of a text, each with the colour it is shown in. -/
def glyphs (colour : Option String) : List Char → List (Option String × Char)
  | [] => []
  | '\x1b' :: '[' :: cs => sequence [] cs
  | c :: cs => (colour, c) :: glyphs colour cs

def sequence (code : List Char) : List Char → List (Option String × Char)
  | [] => []
  | c :: cs =>
    if c = 'm' then glyphs (if code = ['0'] then none else some (String.ofList code)) cs
    else sequence (code ++ [c]) cs

end

def shown (text : String) : List (Option String × Char) := glyphs none text.toList

def bare (text : String) : String := String.ofList ((shown text).map Prod.snd)

variable {colour : Option String} {cs code : List Char}

theorem glyphs_cons {c : Char} (h : c ≠ escape) (colour : Option String) (cs : List Char) :
    glyphs colour (c :: cs) = (colour, c) :: glyphs colour cs := by
  rw [glyphs.eq_def]
  split
  · simp_all
  · simp_all [escape]
  · simp_all

theorem glyphs_append (h : escape ∉ cs) (colour : Option String) (rest : List Char) :
    glyphs colour (cs ++ rest) = cs.map (colour, ·) ++ glyphs colour rest := by
  induction cs with
  | nil => rfl
  | cons c cs ih =>
    obtain ⟨hc, hcs⟩ := not_or.mp (mt List.mem_cons.mpr h)
    rw [List.cons_append, glyphs_cons (Ne.symm hc), ih hcs]
    rfl

theorem sequence_append (h : 'm' ∉ cs) (code rest : List Char) :
    sequence code (cs ++ 'm' :: rest) =
      glyphs (if code ++ cs = ['0'] then none else some (String.ofList (code ++ cs))) rest := by
  induction cs generalizing code with
  | nil => simp [sequence]
  | cons c cs ih =>
    obtain ⟨hc, hcs⟩ := not_or.mp (mt List.mem_cons.mpr h)
    rw [List.cons_append, sequence, if_neg (Ne.symm hc), ih hcs, List.append_assoc]
    rfl

end Terminal

end LoopNest
