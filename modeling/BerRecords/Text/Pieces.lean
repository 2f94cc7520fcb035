/-!
# Pieces

Cutting a text at every occurrence of a character.
-/

set_option autoImplicit false

namespace BerRecords.Text

def pieces (separator : Char) : List Char → List (List Char)
  | [] => [[]]
  | c :: rest =>
    if c = separator then [] :: pieces separator rest
    else
      match pieces separator rest with
      | [] => [[c]]
      | piece :: more => (c :: piece) :: more

theorem pieces_ne_nil (separator : Char) (text : List Char) : pieces separator text ≠ [] := by
  fun_induction pieces separator text with
  | case1 => simp
  | case2 => simp
  | case3 => simp
  | case4 => simp

theorem not_mem_of_mem_pieces {separator : Char} {text piece : List Char}
    (found : piece ∈ pieces separator text) : separator ∉ piece := by
  fun_induction pieces separator text generalizing piece with
  | case1 => simp_all
  | case2 rest ih =>
    rcases List.mem_cons.mp found with rfl | later
    · simp
    · exact ih later
  | case3 c rest _ none ih => exact absurd none (pieces_ne_nil separator rest)
  | case4 c rest other first more some ih =>
    rcases List.mem_cons.mp found with rfl | later
    · simpa [Ne.symm other] using ih (some ▸ List.mem_cons_self)
    · exact ih (some ▸ List.mem_cons_of_mem first later)

end BerRecords.Text
