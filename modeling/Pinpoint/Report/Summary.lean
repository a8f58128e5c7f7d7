import Pinpoint.Text.Numeral

/-!
# Summaries

A report closes with a sentence that counts its warnings and errors. Counts that are not positive
are left out, and so is the sentence if nothing is left to count. What is counted are issues in
memory, so that the counts have few digits. -/

namespace Pinpoint

def counted (n : Int) (noun : Text) : Text :=
  decimal n ++ ' ' :: noun ++ (if n == 1 then [] else ['s'])

/-- The closing sentence of a report. -/
def summary (warnings errors : Int) : Text :=
  let parts := (if 0 < warnings then [counted warnings "warning".toList] else []) ++
    (if 0 < errors then [counted errors "error".toList] else [])
  if parts.isEmpty then [] else Text.join " and ".toList parts ++ " generated.".toList

theorem not_mem_counted {c : Char} (hdigit : c.isDigit = false) (hminus : c ≠ '-') (hspace : c ≠ ' ')
    (hplural : c ≠ 's') {noun : Text} (hnoun : c ∉ noun) (n : Int) : c ∉ counted n noun := by
  simp only [counted, List.mem_append, List.mem_cons, not_or]
  refine ⟨⟨not_mem_decimal hdigit hminus n, hspace, hnoun⟩, ?_⟩
  split
  · exact List.not_mem_nil
  · rwa [List.mem_singleton]

end Pinpoint
