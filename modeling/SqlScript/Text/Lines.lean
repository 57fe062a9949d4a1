/-!
Line ends: a carriage return, alone or before a line feed, ends a line just as a line feed does.
-/

namespace SqlScript.Text

def unifyLineEnds : List Char → List Char
  | '\r' :: '\n' :: rest => '\n' :: unifyLineEnds rest
  | '\r' :: rest => '\n' :: unifyLineEnds rest
  | c :: rest => c :: unifyLineEnds rest
  | [] => []

/-- No carriage return is left. -/
theorem cr_not_mem_unifyLineEnds (cs : List Char) : '\r' ∉ unifyLineEnds cs := by
  fun_induction unifyLineEnds cs with
  | case1 rest ih => simpa using ih
  | case2 rest _ ih => simpa using ih
  | case3 c rest _ h ih =>
    simp only [List.mem_cons, not_or]
    exact ⟨fun e => h e.symm, ih⟩
  | case4 => simp

end SqlScript.Text
