/-!
Text in columns: a field is filled with spaces to its width and never cut.
-/

namespace SqlScript.Text

def padRight (width : Nat) (s : String) : String :=
  String.ofList (s.toList ++ List.replicate (width - s.toList.length) ' ')

theorem padRight_length (width : Nat) (s : String) :
    (padRight width s).toList.length = max width s.toList.length := by
  simp [padRight]
  omega

def rule (c : Char) (width : Nat) : String := String.ofList (List.replicate width c)

end SqlScript.Text
