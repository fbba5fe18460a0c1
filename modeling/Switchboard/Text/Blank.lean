/-!
Blank characters and the fields of a line. A character is blank when it has the Unicode property
White_Space, and the fields of a text are its maximal runs of characters that are not blank. So
the no-break space and the ideographic space separate fields, while the zero width space and the
byte order mark are ordinary characters of a field.
-/

namespace Switchboard.Text

/-- The 25 characters of the property White_Space. -/
def isBlank (c : Char) : Bool :=
  let n := c.toNat
  (0x9 ≤ n && n ≤ 0xd) || n == 0x20 || n == 0x85 || n == 0xa0 || n == 0x1680 ||
    (0x2000 ≤ n && n ≤ 0x200a) || n == 0x2028 || n == 0x2029 || n == 0x202f || n == 0x205f ||
    n == 0x3000

/-- The maximal runs of characters that are not blank, in order. -/
def fields (text : List Char) : List (List Char) :=
  (text.splitOnP isBlank).filter (!·.isEmpty)

@[simp] theorem fields_nil : fields [] = [] := rfl

/-- A leading blank character belongs to no field. -/
theorem fields_cons_of_isBlank {c : Char} (h : isBlank c) (text : List Char) :
    fields (c :: text) = fields text := by
  simp [fields, List.splitOnP_cons_eq_if_modifyHead, h]

end Switchboard.Text
