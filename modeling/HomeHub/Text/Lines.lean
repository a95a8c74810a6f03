/-!
# Lines of a text

A line ends before a line feed. One carriage return directly before the line feed belongs to the
line end and not to the line. A text that stops without a line feed still counts its last line,
and the empty text has none.
-/

namespace HomeHub.Text

def lines : List Char → List (List Char)
  | [] => []
  | '\n' :: rest => [] :: lines rest
  | '\r' :: '\n' :: rest => [] :: lines rest
  | c :: rest =>
    match lines rest with
    | [] => [[c]]
    | first :: others => (c :: first) :: others

/-- No line holds a line feed. -/
theorem newline_not_mem_lines {text line : List Char} (h : line ∈ lines text) : '\n' ∉ line := by
  fun_induction lines text generalizing line with
  | case1 => simp at h
  | case2 rest ih => simp only [List.mem_cons] at h; rcases h with rfl | h <;> simp_all
  | case3 rest ih => simp only [List.mem_cons] at h; rcases h with rfl | h <;> simp_all
  | case4 c rest hn hr hl ih =>
    simp only [List.mem_singleton] at h
    subst h
    exact fun h => hn (List.mem_singleton.1 h).symm
  | case5 c rest hn hr first others hl ih =>
    rcases List.mem_cons.1 h with rfl | h
    · intro hm
      rcases List.mem_cons.1 hm with h | h
      · exact hn h.symm
      · exact @ih first (by simp [hl]) h
    · exact ih (by simp [hl, h])

end HomeHub.Text
