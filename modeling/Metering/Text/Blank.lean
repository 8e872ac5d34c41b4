/-!
This module contains the characters that count as blank and the removal of blanks at both ends of
a text. A text is handled as the list of its characters.
-/

namespace Metering.Text

/--
The white space of Unicode: the characters with the property `White_Space`, of which there are 25.
-/
def isBlank (c : Char) : Bool :=
  let n := c.toNat
  (0x9 ≤ n && n ≤ 0xD) || n == 0x20 || n == 0x85 || n == 0xA0 || n == 0x1680
    || (0x2000 ≤ n && n ≤ 0x200A) || n == 0x2028 || n == 0x2029 || n == 0x202F || n == 0x205F
    || n == 0x3000

def trimEnd (cs : List Char) : List Char :=
  (cs.reverse.dropWhile isBlank).reverse

def trim (cs : List Char) : List Char :=
  trimEnd (cs.dropWhile isBlank)

theorem eq_append_trim (cs : List Char) :
    ∃ l r, cs = l ++ trim cs ++ r ∧ l.all isBlank ∧ r.all isBlank := by
  refine ⟨cs.takeWhile isBlank, ((cs.dropWhile isBlank).reverse.takeWhile isBlank).reverse, ?_,
    ?_, ?_⟩
  . have h := congrArg List.reverse
      (List.takeWhile_append_dropWhile (p := isBlank) (l := (cs.dropWhile isBlank).reverse))
    rw [List.reverse_append, List.reverse_reverse] at h
    rw [List.append_assoc, trim, trimEnd, h, List.takeWhile_append_dropWhile]
  . exact List.all_takeWhile
  . rw [List.all_reverse]
    exact List.all_takeWhile

theorem trim_eq_self {cs : List Char} (hhead : ∀ c, cs.head? = some c → isBlank c = false)
    (hlast : ∀ c, cs.getLast? = some c → isBlank c = false) : trim cs = cs := by
  have hdrop : ∀ ds : List Char, (∀ c, ds.head? = some c → isBlank c = false) →
      ds.dropWhile isBlank = ds := by
    intro ds hds
    cases ds with
    | nil => rfl
    | cons d ds => rw [List.dropWhile_cons, hds d rfl, if_neg Bool.false_ne_true]
  rw [trim, trimEnd, hdrop cs hhead, hdrop cs.reverse (by simpa using hlast), List.reverse_reverse]

end Metering.Text
