import Mathlib.Data.List.DropRight
import Mathlib.Data.Nat.Digits.Defs
import Mathlib.Tactic.Ring
import Pinpoint.Proofs.Suffix
import Pinpoint.Text.Integer

/-!
# Integers as people write them

An integer may have blanks around it and a sign in front, and its digits may come in groups with
single underscores in between (`Spells`). Nothing else is read as an integer, and only so many
digits are read (`readDecimal?_eq_some_iff`). The numeral of an integer is one of the texts that
spell it (`denotesInteger_decimal`). -/

namespace Pinpoint

/-- The number that digits of any script amount to, the most significant one first. -/
def digitsValue (digits : Text) : Nat := Nat.ofDigits 10 (digits.filterMap digitValue?).reverse

/-- What a sign in front of a number makes of it. -/
inductive Signed (n : Nat) : Text → Int → Prop where
  | unsigned : Signed n [] n
  | plus : Signed n ['+'] n
  | minus : Signed n ['-'] (-n)

/-- A text spells an integer with its digits in some groups: single underscores between the groups,
a sign in front if there is one, and blanks around. -/
inductive Spells (groups : List Text) : Text → Int → Prop where
  | intro {before sign after : Text} {n : Int} (some_group : groups ≠ [])
      (numerals : ∀ g ∈ groups, IsNumeral g) (signed : Signed (digitsValue groups.flatten) sign n)
      (blank_before : ∀ c ∈ before, isNumeralBlank c = true)
      (blank_after : ∀ c ∈ after, isNumeralBlank c = true) :
      Spells groups (before ++ (sign ++ List.intercalate ['_'] groups) ++ after) n

/-- A text denotes an integer that it spells with no more digits than are read. -/
def DenotesInteger (t : Text) (n : Int) : Prop :=
  ∃ groups, groups.flatten.length ≤ digitLimit ∧ Spells groups t n

/-! ## Digits -/

theorem digitIn?_ten (c : Char) : digitIn? 10 c = digitValue? c := by
  have hsmall : 'a'.toNat = 97 := rfl
  have hcapital : 'A'.toNat = 65 := rfl
  unfold digitIn?
  cases h : digitValue? c with
  | some n => exact Option.filter_some_pos (decide_eq_true (digitValue?_lt h))
  | none =>
    simp only [Option.filter_eq_none_iff, Bool.and_eq_true, decide_eq_true_eq, Char.le_def,
      UInt32.le_iff_toNat_le]
    intro n hn
    split at hn
    next hc =>
      cases hn
      have : 'a'.toNat ≤ c.toNat := hc.1
      omega
    next =>
      split at hn
      next hc =>
        cases hn
        have : 'A'.toNat ≤ c.toNat := hc.1
        omega
      next => cases hn

theorem exists_digitValue {c : Char} (h : isDecimalDigit c = true) : ∃ d, digitValue? c = some d :=
  Option.isSome_iff_exists.1 h

theorem digitsValue_cons {c : Char} {d : Nat} (hd : digitValue? c = some d) {ds : Text}
    (hds : ∀ c ∈ ds, isDecimalDigit c = true) :
    digitsValue (c :: ds) = d * 10 ^ ds.length + digitsValue ds := by
  have hlength : (ds.filterMap digitValue?).length = ds.length := by
    rw [List.length_filterMap_eq_countP, List.countP_eq_length]
    exact hds
  rw [digitsValue, digitsValue, List.filterMap_cons_some hd, List.reverse_cons,
    Nat.ofDigits_append, List.length_reverse, hlength, Nat.ofDigits_singleton]
  ring

theorem isDecimalDigit_of_digitIn? {c : Char} {d : Nat} (h : digitIn? 10 c = some d) :
    isDecimalDigit c = true := by
  rw [digitIn?_ten] at h
  exact Option.isSome_iff_exists.2 ⟨d, h⟩

section
variable {c : Char} {d : Nat} (hd : digitValue? c = some d) (n : Nat) (rest : Text)
include hd

theorem readMoreDigits?_digit :
    readMoreDigits? 10 n (c :: rest) = readMoreDigits? 10 (n * 10 + d) rest := by
  have hne : c ≠ '_' := by
    rintro rfl
    cases hd
  rw [readMoreDigits?.eq_3 _ _ _ _ fun _ _ hc _ => hne hc, digitIn?_ten, hd, Option.bind_some]

/-- An underscore in front of a digit is passed over. -/
theorem readMoreDigits?_underscore :
    readMoreDigits? 10 n ('_' :: c :: rest) = readMoreDigits? 10 n (c :: rest) := by
  rw [readMoreDigits?_digit hd, readMoreDigits?.eq_2, digitIn?_ten, hd, Option.bind_some]

end

/-- Digits are read from left to right, whatever follows them. -/
theorem readMoreDigits?_append {ds : Text} (hds : ∀ c ∈ ds, isDecimalDigit c = true) (n : Nat)
    (rest : Text) : readMoreDigits? 10 n (ds ++ rest) =
      readMoreDigits? 10 (n * 10 ^ ds.length + digitsValue ds) rest := by
  induction ds generalizing n with
  | nil => simp [digitsValue]
  | cons c ds ih =>
    obtain ⟨hc, hds⟩ := List.forall_mem_cons.1 hds
    obtain ⟨d, hd⟩ := exists_digitValue hc
    rw [List.cons_append, readMoreDigits?_digit hd, ih hds, digitsValue_cons hd hds,
      List.length_cons]
    congr 1
    ring

/-! ## Groups of digits -/

theorem intercalate_cons_eq (g : Text) (groups : List Text) :
    List.intercalate ['_'] (g :: groups) = g ++ groups.flatMap ('_' :: ·) := by
  induction groups generalizing g with
  | nil => simp
  | cons h groups ih => simp [List.intercalate_cons_cons, ih]

theorem isDecimalDigit_of_mem_flatten {groups : List Text} (h : ∀ g ∈ groups, IsNumeral g) :
    ∀ c ∈ groups.flatten, isDecimalDigit c = true := by
  intro c hc
  obtain ⟨g, hg, hc⟩ := List.mem_flatten.1 hc
  exact (h g hg).digits c hc

theorem readMoreDigits?_groups {groups : List Text} (h : ∀ g ∈ groups, IsNumeral g) (n : Nat) :
    readMoreDigits? 10 n (groups.flatMap ('_' :: ·)) = readMoreDigits? 10 n groups.flatten := by
  induction groups generalizing n with
  | nil => rfl
  | cons g groups ih =>
    obtain ⟨hg, hgroups⟩ := List.forall_mem_cons.1 h
    obtain ⟨c, ds, rfl⟩ := List.exists_cons_of_ne_nil hg.nonempty
    obtain ⟨d, hd⟩ := exists_digitValue (hg.digits c List.mem_cons_self)
    rw [List.flatMap_cons, List.flatten_cons, List.cons_append, List.cons_append,
      readMoreDigits?_underscore hd, ← List.cons_append, readMoreDigits?_append hg.digits,
      readMoreDigits?_append hg.digits, ih hgroups]

/-- What is read behind a first digit is more digits and then groups of them. -/
theorem exists_groups_of_readMoreDigits? {n m : Nat} {t : Text}
    (h : readMoreDigits? 10 n t = some m) : ∃ (first : Text) (groups : List Text),
      (∀ c ∈ first, isDecimalDigit c = true) ∧ (∀ g ∈ groups, IsNumeral g) ∧
        t = first ++ groups.flatMap ('_' :: ·) := by
  fun_induction readMoreDigits? 10 n t with
  | case1 n => exact ⟨[], [], nofun, nofun, rfl⟩
  | case2 n c rest ih =>
    obtain ⟨d, hd, h⟩ := Option.bind_eq_some_iff.1 h
    obtain ⟨first, groups, hfirst, hgroups, rfl⟩ := ih d h
    have hnumeral : IsNumeral (c :: first) := ⟨List.cons_ne_nil c first,
      List.forall_mem_cons.2 ⟨isDecimalDigit_of_digitIn? hd, hfirst⟩⟩
    exact ⟨[], (c :: first) :: groups, nofun, List.forall_mem_cons.2 ⟨hnumeral, hgroups⟩, rfl⟩
  | case3 n c rest _ ih =>
    obtain ⟨d, hd, h⟩ := Option.bind_eq_some_iff.1 h
    obtain ⟨first, groups, hfirst, hgroups, rfl⟩ := ih d h
    exact ⟨c :: first, groups,
      List.forall_mem_cons.2 ⟨isDecimalDigit_of_digitIn? hd, hfirst⟩, hgroups, rfl⟩

theorem readDigits?_intercalate {groups : List Text} (hne : groups ≠ [])
    (h : ∀ g ∈ groups, IsNumeral g) :
    readDigits? 10 (List.intercalate ['_'] groups) = some (digitsValue groups.flatten) := by
  obtain ⟨g, groups, rfl⟩ := List.exists_cons_of_ne_nil hne
  obtain ⟨hg, hgroups⟩ := List.forall_mem_cons.1 h
  have hdigits := isDecimalDigit_of_mem_flatten h
  obtain ⟨c, ds, rfl⟩ := List.exists_cons_of_ne_nil hg.nonempty
  obtain ⟨hc, hds⟩ := List.forall_mem_cons.1 hg.digits
  obtain ⟨d, hd⟩ := exists_digitValue hc
  rw [List.flatten_cons, List.cons_append] at hdigits ⊢
  have hrest := (List.forall_mem_cons.1 hdigits).2
  have hread := readMoreDigits?_append hrest d []
  rw [List.append_nil, readMoreDigits?.eq_1, ← digitsValue_cons hd hrest] at hread
  rw [intercalate_cons_eq, List.cons_append, readDigits?, digitIn?_ten, hd, Option.bind_some,
    readMoreDigits?_append hds, readMoreDigits?_groups hgroups, ← readMoreDigits?_append hds, hread]

theorem readDigits?_eq_some_iff {t : Text} {m : Nat} :
    readDigits? 10 t = some m ↔ ∃ groups, groups ≠ [] ∧ (∀ g ∈ groups, IsNumeral g) ∧
      List.intercalate ['_'] groups = t ∧ digitsValue groups.flatten = m := by
  constructor
  · intro h
    cases t with
    | nil => cases h
    | cons c rest =>
      obtain ⟨d, hd, hrest⟩ := Option.bind_eq_some_iff.1 h
      obtain ⟨first, groups, hfirst, hgroups, rfl⟩ := exists_groups_of_readMoreDigits? hrest
      have hnumeral : IsNumeral (c :: first) := ⟨List.cons_ne_nil c first,
        List.forall_mem_cons.2 ⟨isDecimalDigit_of_digitIn? hd, hfirst⟩⟩
      have hall := List.forall_mem_cons.2 ⟨hnumeral, hgroups⟩
      have ht := intercalate_cons_eq (c :: first) groups
      have hvalue := readDigits?_intercalate (List.cons_ne_nil _ _) hall
      rw [ht] at hvalue
      exact ⟨_, List.cons_ne_nil _ _, hall, ht, Option.some.inj (hvalue.symm.trans h)⟩
  · rintro ⟨groups, hne, h, rfl, rfl⟩
    exact readDigits?_intercalate hne h

/-! ## Blanks and signs -/

theorem dropBaseMark_ten (t : Text) : dropBaseMark 10 t = t := by
  unfold dropBaseMark
  split
  · simp
  · rfl

theorem isNumeralBlank_of_isDecimalDigit {c : Char} (h : isDecimalDigit c = true) :
    isNumeralBlank c = false := by
  have hruns : ∀ z ∈ digitZeros, z = 0x30 ∨ 0x660 ≤ z ∧ z + 10 ≤ 0x1680 ∨
      0x1681 ≤ z ∧ z + 10 ≤ 0x2000 ∨ 0x3001 ≤ z := by decide
  obtain ⟨d, hd⟩ := exists_digitValue h
  obtain ⟨z, hz, -⟩ := Option.map_eq_some_iff.1 hd
  have hrun := List.find?_some hz
  have := hruns z (List.mem_of_find?_eq_some hz)
  simp only [Bool.and_eq_true, decide_eq_true_eq] at hrun
  have hblank : isBlank c = false := by
    simp only [isBlank, Bool.or_eq_false_iff, Bool.and_eq_false_iff, decide_eq_false_iff_not,
      beq_eq_false_iff_ne]
    omega
  rw [isNumeralBlank, hblank, Bool.false_and]

theorem exists_trim (blank : Char → Bool) (t : Text) : ∃ before after : Text,
    (∀ c ∈ before, blank c = true) ∧ (∀ c ∈ after, blank c = true) ∧
      t = before ++ t.trim blank ++ after := by
  refine ⟨t.takeWhile blank, (t.dropWhile blank).rtakeWhile blank, ?_, ?_, ?_⟩
  · exact fun c hc => List.mem_takeWhile_imp hc
  · exact fun c hc => List.mem_rtakeWhile_imp hc
  · have hend := List.rdropWhile_append_rtakeWhile (p := blank) (l := t.dropWhile blank)
    rw [List.append_assoc]
    show t = _ ++ (List.rdropWhile blank _ ++ _)
    rw [hend, List.takeWhile_append_dropWhile]

theorem dropWhile_append_of_head {blank : Char → Bool} {before t : Text}
    (hbefore : ∀ c ∈ before, blank c = true) (hfirst : ∀ c ∈ t.head?, blank c = false) :
    (before ++ t).dropWhile blank = t := by
  rw [List.dropWhile_append_of_pos hbefore]
  cases t with
  | nil => rfl
  | cons c t =>
    have hc := hfirst c rfl
    exact List.dropWhile_cons_of_neg (Bool.not_eq_true _ ▸ hc)

/-- Blanks around other characters are trimmed. -/
theorem trim_append {blank : Char → Bool} {before after t : Text}
    (hbefore : ∀ c ∈ before, blank c = true) (hafter : ∀ c ∈ after, blank c = true) (hne : t ≠ [])
    (hothers : ∀ c ∈ t, blank c = false) : Text.trim blank (before ++ t ++ after) = t := by
  have hstart : (before ++ (t ++ after)).dropWhile blank = t ++ after := by
    refine dropWhile_append_of_head hbefore fun c hc => hothers c ?_
    rw [List.head?_append_of_ne_nil _ hne] at hc
    exact List.mem_of_mem_head? hc
  have hend : (after.reverse ++ t.reverse).dropWhile blank = t.reverse := by
    refine dropWhile_append_of_head (fun c hc => hafter c (List.mem_reverse.1 hc)) fun c hc => ?_
    exact hothers c (List.mem_reverse.1 (List.mem_of_mem_head? hc))
  rw [Text.trim, List.append_assoc, hstart, List.reverse_append, hend, List.reverse_reverse]

/-! ## Integers -/

theorem intercalate_eq_cons {groups : List Text} (hne : groups ≠ [])
    (h : ∀ g ∈ groups, IsNumeral g) :
    ∃ c rest, isDecimalDigit c = true ∧ List.intercalate ['_'] groups = c :: rest := by
  obtain ⟨g, groups, rfl⟩ := List.exists_cons_of_ne_nil hne
  have hg := h g List.mem_cons_self
  obtain ⟨c, ds, rfl⟩ := List.exists_cons_of_ne_nil hg.nonempty
  exact ⟨c, ds ++ groups.flatMap ('_' :: ·), hg.digits c List.mem_cons_self,
    intercalate_cons_eq (c :: ds) groups⟩

theorem readInteger?_of_signed {sign : Text} {groups : List Text} {n : Int} (hne : groups ≠ [])
    (h : ∀ g ∈ groups, IsNumeral g) (hsign : Signed (digitsValue groups.flatten) sign n) {t : Text}
    (ht : t.trim isNumeralBlank = sign ++ List.intercalate ['_'] groups) :
    readInteger? 10 t = some n := by
  have hread := readDigits?_intercalate hne h
  unfold readInteger?
  rw [ht]
  cases hsign with
  | unsigned =>
    obtain ⟨c, rest, hc, hcons⟩ := intercalate_eq_cons hne h
    rw [List.nil_append, hcons]
    split
    next hminus =>
      cases hminus
      cases hc
    next hplus =>
      cases hplus
      cases hc
    next =>
      rw [dropBaseMark_ten, ← hcons, hread]
      rfl
  | plus =>
    show (readDigits? 10 (dropBaseMark 10 (List.intercalate ['_'] groups))).map Int.ofNat = _
    rw [dropBaseMark_ten, hread]
    rfl
  | minus =>
    show (readDigits? 10 (dropBaseMark 10 (List.intercalate ['_'] groups))).map
      (fun n : Nat => -(n : Int)) = _
    rw [dropBaseMark_ten, hread]
    rfl

theorem exists_signed_of_readInteger? {t : Text} {n : Int} (h : readInteger? 10 t = some n) :
    ∃ sign groups, groups ≠ [] ∧ (∀ g ∈ groups, IsNumeral g) ∧
      Signed (digitsValue groups.flatten) sign n ∧
      t.trim isNumeralBlank = sign ++ List.intercalate ['_'] groups := by
  unfold readInteger? at h
  simp only [dropBaseMark_ten] at h
  split at h
  next rest hrest =>
    obtain ⟨m, hm, rfl⟩ := Option.map_eq_some_iff.1 h
    obtain ⟨groups, hne, hnumerals, rfl, rfl⟩ := readDigits?_eq_some_iff.1 hm
    exact ⟨['-'], groups, hne, hnumerals, .minus, hrest⟩
  next rest hrest =>
    obtain ⟨m, hm, rfl⟩ := Option.map_eq_some_iff.1 h
    obtain ⟨groups, hne, hnumerals, rfl, rfl⟩ := readDigits?_eq_some_iff.1 hm
    exact ⟨['+'], groups, hne, hnumerals, .plus, hrest⟩
  next =>
    obtain ⟨m, hm, rfl⟩ := Option.map_eq_some_iff.1 h
    obtain ⟨groups, hne, hnumerals, htrim, rfl⟩ := readDigits?_eq_some_iff.1 hm
    exact ⟨[], groups, hne, hnumerals, .unsigned, htrim.symm⟩

theorem Signed.mem {m : Nat} {sign : Text} {n : Int} (h : Signed m sign n) :
    ∀ c ∈ sign, c = '+' ∨ c = '-' := by
  cases h with
  | unsigned => nofun
  | plus => exact fun c hc => .inl (List.mem_singleton.1 hc)
  | minus => exact fun c hc => .inr (List.mem_singleton.1 hc)

theorem Signed.countP {m : Nat} {sign : Text} {n : Int} (h : Signed m sign n) :
    sign.countP isDecimalDigit = 0 := by
  cases h <;> rfl

theorem mem_intercalate {groups : List Text} (h : ∀ g ∈ groups, IsNumeral g) :
    ∀ c ∈ List.intercalate ['_'] groups, c = '_' ∨ isDecimalDigit c = true := by
  cases groups with
  | nil => nofun
  | cons g groups =>
    obtain ⟨hg, hgroups⟩ := List.forall_mem_cons.1 h
    intro c hc
    rw [intercalate_cons_eq, List.mem_append, List.mem_flatMap] at hc
    rcases hc with hc | ⟨g', hg', hc⟩
    · exact .inr (hg.digits c hc)
    · exact (List.mem_cons.1 hc).imp_right ((hgroups g' hg').digits c)

theorem readInteger?_eq_some_iff {t : Text} {n : Int} :
    readInteger? 10 t = some n ↔ ∃ groups, Spells groups t n := by
  constructor
  · intro h
    obtain ⟨sign, groups, hne, hnumerals, hsign, htrim⟩ := exists_signed_of_readInteger? h
    obtain ⟨before, after, hbefore, hafter, ht⟩ := exists_trim isNumeralBlank t
    rw [htrim] at ht
    exact ⟨groups, ht ▸ .intro hne hnumerals hsign hbefore hafter⟩
  · rintro ⟨groups, ⟨hne, hnumerals, hsign, hbefore, hafter⟩⟩
    refine readInteger?_of_signed hne hnumerals hsign (trim_append hbefore hafter ?_ ?_)
    · obtain ⟨c, rest, -, hcons⟩ := intercalate_eq_cons hne hnumerals
      rw [hcons]
      exact List.append_ne_nil_of_right_ne_nil _ (List.cons_ne_nil c rest)
    · intro c hc
      rcases List.mem_append.1 hc with hc | hc
      · rcases hsign.mem c hc with rfl | rfl <;> decide
      · rcases mem_intercalate hnumerals c hc with rfl | hdigit
        · decide
        · exact isNumeralBlank_of_isDecimalDigit hdigit

theorem countP_groups {groups : List Text} (h : ∀ g ∈ groups, IsNumeral g) :
    (groups.flatMap ('_' :: ·)).countP isDecimalDigit = groups.flatten.length := by
  induction groups with
  | nil => rfl
  | cons g groups ih =>
    obtain ⟨hg, hgroups⟩ := List.forall_mem_cons.1 h
    rw [List.flatMap_cons, List.cons_append, List.countP_cons_of_neg (by decide),
      List.countP_append, List.countP_eq_length.2 hg.digits, ih hgroups, List.flatten_cons,
      List.length_append]

theorem countP_intercalate {groups : List Text} (h : ∀ g ∈ groups, IsNumeral g) :
    (List.intercalate ['_'] groups).countP isDecimalDigit = groups.flatten.length := by
  cases groups with
  | nil => rfl
  | cons g groups =>
    obtain ⟨hg, hgroups⟩ := List.forall_mem_cons.1 h
    rw [intercalate_cons_eq, List.countP_append, List.countP_eq_length.2 hg.digits,
      countP_groups hgroups, List.flatten_cons, List.length_append]

theorem Spells.countP {groups : List Text} {t : Text} {n : Int} (h : Spells groups t n) :
    t.countP isDecimalDigit = groups.flatten.length := by
  obtain ⟨-, hnumerals, hsign, hbefore, hafter⟩ := h
  have hblank {blanks : Text} (h : ∀ c ∈ blanks, isNumeralBlank c = true) :
      blanks.countP isDecimalDigit = 0 := by
    rw [List.countP_eq_zero]
    intro c hc hdigit
    have hnot := isNumeralBlank_of_isDecimalDigit hdigit
    rw [h c hc] at hnot
    cases hnot
  rw [List.countP_append, List.countP_append, List.countP_append, hblank hbefore, hblank hafter,
    hsign.countP, countP_intercalate hnumerals, Nat.zero_add, Nat.zero_add, Nat.add_zero]

/-- **An integer is read from exactly the texts that denote it.** -/
theorem readDecimal?_eq_some_iff {t : Text} {n : Int} :
    readDecimal? t = some n ↔ DenotesInteger t n := by
  unfold readDecimal?
  constructor
  · intro h
    split at h
    next hlimit =>
      obtain ⟨groups, hspells⟩ := readInteger?_eq_some_iff.1 h
      exact ⟨groups, hspells.countP ▸ hlimit, hspells⟩
    next => cases h
  · rintro ⟨groups, hlimit, hspells⟩
    rw [if_pos (hspells.countP ▸ hlimit), readInteger?_eq_some_iff]
    exact ⟨groups, hspells⟩

/-! ## The numeral of an integer -/

theorem digitValue?_of_isDigit {c : Char} (h : c.isDigit = true) :
    digitValue? c = some (c.toNat - '0'.toNat) := by
  obtain ⟨hzero, hnine⟩ := Char.isDigit_iff_toNat.1 h
  have hrun : (0x30 ≤ c.toNat && c.toNat < 0x30 + 10) = true := by
    rw [Bool.and_eq_true, decide_eq_true_eq, decide_eq_true_eq]
    exact ⟨hzero, Nat.lt_succ_of_le hnine⟩
  have hfind : digitZeros.find? (fun start => start ≤ c.toNat && c.toNat < start + 10) =
      some 0x30 := List.find?_cons_of_pos hrun
  rw [digitValue?, hfind]
  rfl

theorem isDecimalDigit_of_isDigit {c : Char} (h : c.isDigit = true) : isDecimalDigit c = true :=
  Option.isSome_iff_exists.2 ⟨_, digitValue?_of_isDigit h⟩

theorem ofDigitChars_eq {ds : Text} (h : ∀ c ∈ ds, c.isDigit = true) (n : Nat) :
    Nat.ofDigitChars 10 ds n = n * 10 ^ ds.length + digitsValue ds := by
  induction ds generalizing n with
  | nil => simp [digitsValue]
  | cons c ds ih =>
    obtain ⟨hc, hds⟩ := List.forall_mem_cons.1 h
    rw [Nat.ofDigitChars_cons, ih hds, digitsValue_cons (digitValue?_of_isDigit hc)
      fun c hc => isDecimalDigit_of_isDigit (hds c hc), List.length_cons]
    ring

theorem isDigit_of_mem_toDigits (n : Nat) : ∀ c ∈ Nat.toDigits 10 n, c.isDigit = true :=
  fun _ hc => Nat.isDigit_of_mem_toDigits (by decide) (by decide) hc

theorem digitsValue_toDigits (n : Nat) : digitsValue (Nat.toDigits 10 n) = n := by
  have hvalue := ofDigitChars_eq (isDigit_of_mem_toDigits n) 0
  rw [Nat.ofDigitChars_ten_toDigits] at hvalue
  omega

theorem isNumeral_toDigits (n : Nat) : IsNumeral (Nat.toDigits 10 n) :=
  ⟨Nat.toDigits_ne_nil, fun c hc => isDecimalDigit_of_isDigit (isDigit_of_mem_toDigits n c hc)⟩

theorem spells_sign_toDigits {m : Nat} {sign : Text} {n : Int} (hsign : Signed m sign n) :
    Spells [Nat.toDigits 10 m] (sign ++ Nat.toDigits 10 m) n := by
  have hvalue : digitsValue [Nat.toDigits 10 m].flatten = m := by
    rw [List.flatten_singleton, digitsValue_toDigits]
  have hnil : ∀ c ∈ ([] : Text), isNumeralBlank c = true := nofun
  have hspells := Spells.intro (List.cons_ne_nil _ [])
    (List.forall_mem_singleton.2 (isNumeral_toDigits m)) (hvalue.symm ▸ hsign) hnil hnil
  rwa [List.intercalate_singleton, List.nil_append, List.append_nil] at hspells

theorem denotesInteger_decimal {n : Int} (h : FewDigits n) : DenotesInteger (decimal n) n := by
  refine ⟨[Nat.toDigits 10 n.natAbs], by rwa [List.flatten_singleton], ?_⟩
  cases n with
  | ofNat m => exact spells_sign_toDigits .unsigned
  | negSucc m => exact spells_sign_toDigits .minus

end Pinpoint
