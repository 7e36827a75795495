import Mathlib.Data.List.TakeWhile
import Mathlib.Data.Nat.Digits.Lemmas

/- Bytes in memory: text, decimal numbers, fields, and stores into a buffer. A C string
   is the list of its bytes, without the NUL. -/
namespace Bytes

/-- The bytes of a literal. -/
def ascii (s : String) : List UInt8 := s.toByteArray.data.toList

/-- The C string at the front of a piece of memory. -/
def cstring (memory : List UInt8) : List UInt8 := memory.takeWhile (· ≠ 0)

/-- The offset at which a text first occurs. -/
def strstr (needle : List UInt8) : List UInt8 → Option Nat
  | [] => if needle = [] then some 0 else none
  | c :: cs => if needle <+: c :: cs then some 0 else (strstr needle cs).map (· + 1)

theorem strstr_append (needle rest : List UInt8) : strstr needle (needle ++ rest) = some 0 := by
  cases h : needle ++ rest with
  | nil => simp [strstr, (List.append_eq_nil_iff.mp h).1]
  | cons c cs =>
    have hfront : needle <+: c :: cs := ⟨rest, h⟩
    rw [strstr, if_pos hfront]

theorem isSome_strstr {needle : List UInt8} (l : List UInt8) :
    (strstr needle l).isSome ↔ needle <:+: l := by
  induction l with
  | nil =>
    rw [strstr, List.infix_nil]
    split <;> simp [*]
  | cons c cs ih =>
    rw [strstr, List.infix_cons_iff]
    split
    · simp [*]
    · simp [*]

/-- A text that is found ends within the string. -/
theorem strstr_le {needle l : List UInt8} {at_ : Nat} (h : strstr needle l = some at_) :
    at_ + needle.length ≤ l.length := by
  induction l generalizing at_ with
  | nil =>
    rw [strstr] at h
    split at h
    · next hnil =>
      rw [← Option.some.inj h, hnil]
      exact Nat.le_refl _
    · cases h
  | cons c cs ih =>
    rw [strstr] at h
    split at h
    · next hfront =>
      rw [← Option.some.inj h, Nat.zero_add]
      exact hfront.length_le
    · obtain ⟨k, hk, rfl⟩ := Option.map_eq_some_iff.mp h
      have hle := ih hk
      rw [List.length_cons]
      omega

/-- A place in a C string, seen from there. -/
theorem drop_cstring {l : List UInt8} {p : Nat} (h : p ≤ (cstring l).length) :
    (cstring l).drop p = cstring (l.drop p) := by
  induction p generalizing l with
  | zero => rfl
  | succ p ih =>
    cases l with
    | nil => exact absurd h (Nat.not_succ_le_zero p)
    | cons c cs =>
      by_cases hc : c = 0
      · simp [cstring, hc] at h
      · have hcons : cstring (c :: cs) = c :: cstring cs := by simp [cstring, hc]
        rw [hcons] at h ⊢
        exact ih (Nat.le_of_succ_le_succ h)

/-- A text does not begin where its first byte does not occur. -/
theorem infix_append_of_head {c : UInt8} {cs p l : List UInt8} (h : c ∉ p) :
    c :: cs <:+: p ++ l ↔ c :: cs <:+: l := by
  induction p with
  | nil => rfl
  | cons b p ih =>
    simp only [List.mem_cons, not_or] at h
    rw [List.cons_append, List.infix_cons_iff, ih h.2]
    constructor
    · intro h
      rcases h with hfront | hrest
      · exact absurd (List.cons_prefix_cons.mp hfront).1 h.1
      · exact hrest
    · exact .inr

/-- The C string in memory that begins with bytes other than NUL. -/
theorem cstring_append {a : List UInt8} (h : 0 ∉ a) (b : List UInt8) :
    cstring (a ++ b) = a ++ cstring b := by
  rw [cstring, List.takeWhile_append_of_pos]
  · rfl
  · intro c hc
    simp only [decide_eq_true_eq]
    exact fun hzero => h (hzero ▸ hc)

theorem cstring_nul (a b : List UInt8) : cstring (a ++ 0 :: b) = cstring a := by
  induction a with
  | nil => rfl
  | cons c cs ih =>
    simp only [cstring, List.cons_append, List.takeWhile_cons] at ih ⊢
    rw [ih]

/-- A decimal digit. -/
def digit (d : Nat) : UInt8 := UInt8.ofNat (48 + d)

/-- `%d` of a number that is not negative. -/
def decimal (n : Nat) : List UInt8 :=
  if n = 0 then [digit 0] else (Nat.digits 10 n).reverse.map digit

theorem mem_decimal {n : Nat} {c : UInt8} (h : c ∈ decimal n) : 48 ≤ c.toNat ∧ c.toNat < 58 := by
  have hdigit : ∃ d, d < 10 ∧ digit d = c := by
    unfold decimal at h
    split at h
    · exact ⟨0, by decide, (List.mem_singleton.mp h).symm⟩
    · obtain ⟨d, hd, hc⟩ := List.mem_map.mp h
      exact ⟨d, Nat.digits_lt_base (by decide) (List.mem_reverse.mp hd), hc⟩
  obtain ⟨d, hd, rfl⟩ := hdigit
  simp only [digit, UInt8.toNat_ofNat']
  omega

/-- The number that digits denote. -/
def ofDecimal (digits : List UInt8) : Nat :=
  digits.foldl (fun n c => n * 10 + (c.toNat - 48)) 0

/-- A digit is added to a number of 16 bits, its offset `'0'` as `65488`. -/
theorem digit_step16 {c : UInt8} (hge : 48 ≤ c.toNat) (hlt : c.toNat < 58) (n : Nat) :
    (n % 65536 * 10 + c.toNat + 65488) % 65536 = (n * 10 + (c.toNat - 48)) % 65536 := by
  omega

theorem ofDecimal_append (digits : List UInt8) (c : UInt8) :
    ofDecimal (digits ++ [c]) = ofDecimal digits * 10 + (c.toNat - 48) := by
  rw [ofDecimal, List.foldl_append]
  rfl

theorem ofDecimal_lt {digits : List UInt8} (h : ∀ c ∈ digits, c.toNat < 58) :
    ofDecimal digits < 10 ^ digits.length := by
  induction digits using List.reverseRecOn with
  | nil => exact Nat.one_pos
  | append_singleton digits c ih =>
    simp only [List.mem_append, List.mem_singleton] at h
    have hfront := ih fun c' hc' => h c' (.inl hc')
    have hlast := h c (.inr rfl)
    rw [ofDecimal_append, List.length_append, List.length_singleton, Nat.pow_succ]
    omega

theorem ofDecimal_decimal (n : Nat) : ofDecimal (decimal n) = n := by
  -- `Nat.digits` has the lowest digit first, the fold meets it last
  have hfoldr : ∀ ds : List Nat, (∀ d ∈ ds, d < 10) →
      ofDecimal (ds.reverse.map digit) = Nat.ofDigits 10 ds := by
    intro ds hds
    induction ds with
    | nil => rfl
    | cons d ds ih =>
      have hd : d < 10 := hds d List.mem_cons_self
      have hrest := ih fun d' hd' => hds d' (List.mem_cons_of_mem d hd')
      simp only [ofDecimal, List.reverse_cons, List.map_append, List.foldl_append] at hrest ⊢
      simp only [hrest, List.map_cons, List.map_nil, List.foldl_cons, List.foldl_nil, digit,
        UInt8.toNat_ofNat', Nat.ofDigits_cons]
      push_cast
      omega
  unfold decimal
  split
  · simp [*, ofDecimal, digit]
  · rw [hfoldr _ fun d hd => Nat.digits_lt_base (by decide) hd, Nat.ofDigits_digits]

theorem length_decimal_le {n k : Nat} (hk : 0 < k) (h : n < 10 ^ k) : (decimal n).length ≤ k := by
  unfold decimal
  split
  · exact hk
  · rw [List.length_map, List.length_reverse]
    exact (Nat.digits_length_le_iff (by decide) n).mpr h

/-- The last digit. -/
theorem getLast?_decimal (n : Nat) : (decimal n).getLast? = some (digit (n % 10)) := by
  unfold decimal
  split
  · rename_i h
    rw [h]
    rfl
  · rename_i h
    rw [Nat.digits_def' (by decide) (Nat.pos_of_ne_zero h), List.map_reverse,
      List.getLast?_reverse]
    rfl

/-- `isspace`. -/
def isspace (c : UInt8) : Bool := c = 32 ∨ 9 ≤ c ∧ c ≤ 13

/-- `isdigit`. -/
def isdigit (c : UInt8) : Bool := 48 ≤ c ∧ c ≤ 57

/-- The sign in front of a number, and what is behind it. -/
def scanSign : List UInt8 → Bool × List UInt8
  | 43 :: s => (false, s)
  | 45 :: s => (true, s)
  | s => (false, s)

theorem scanSign_eq {c : UInt8} (hplus : c ≠ 43) (hminus : c ≠ 45) (cs : List UInt8) :
    scanSign (c :: cs) = (false, c :: cs) := by
  unfold scanSign
  split
  · next heq => exact absurd (List.cons.inj heq).1 hplus
  · next heq => exact absurd (List.cons.inj heq).1 hminus
  · rfl

/-- `atoll`, of a number that fits. -/
def atoll (memory : List UInt8) : Int :=
  let sign := scanSign ((cstring memory).dropWhile isspace)
  let n := ofDecimal (sign.2.takeWhile isdigit)
  if sign.1 then -n else n

theorem isdigit_iff {c : UInt8} : isdigit c = true ↔ 48 ≤ c.toNat ∧ c.toNat < 58 := by
  simp only [isdigit, decide_eq_true_eq, UInt8.le_iff_toNat_le, UInt8.reduceToNat]
  omega

theorem isdigit_chars {c : UInt8} (h : isdigit c = true) :
    isspace c = false ∧ c ≠ 0 ∧ c ≠ 43 ∧ c ≠ 45 := by
  have hbounds := isdigit_iff.mp h
  refine ⟨?_, ?_, ?_, ?_⟩
  · simp only [isspace, decide_eq_false_iff_not, UInt8.le_iff_toNat_le, ← UInt8.toNat_inj,
      UInt8.reduceToNat]
    omega
  all_goals
    rintro rfl
    exact absurd h (by decide)

/-- `%0<width>d`. -/
def paddedDecimal (width : Nat) (n : Int) : List UInt8 :=
  let digits := decimal n.natAbs
  let sign := if n < 0 then [45] else []
  sign ++ List.replicate (width - sign.length - digits.length) (digit 0) ++ digits

theorem getLast?_paddedDecimal (width n : Nat) :
    (paddedDecimal width n).getLast? = some (digit (n % 10)) := by
  simp only [paddedDecimal, List.getLast?_append, Int.natAbs_natCast, getLast?_decimal,
    Option.some_or]

/-- A hexadecimal digit. -/
def hexDigit (upper : Bool) (k : Nat) : UInt8 :=
  UInt8.ofNat (if k < 10 then 48 + k else if upper then 55 + k else 87 + k)

/-- Bytes as hexadecimal digits, two for each. -/
def hexText (upper : Bool) (bytes : List UInt8) : List UInt8 :=
  bytes.flatMap fun b => [hexDigit upper (b.toNat / 16), hexDigit upper (b.toNat % 16)]

theorem hexText_cons (upper : Bool) (b : UInt8) (bytes : List UInt8) :
    hexText upper (b :: bytes) =
      hexDigit upper (b.toNat / 16) :: hexDigit upper (b.toNat % 16) :: hexText upper bytes :=
  rfl

theorem length_hexText (upper : Bool) (bytes : List UInt8) :
    (hexText upper bytes).length = 2 * bytes.length := by
  induction bytes with
  | nil => rfl
  | cons b bytes ih =>
    rw [hexText_cons, List.length_cons, List.length_cons, ih, List.length_cons]
    omega

/-- The only byte whose first digit it is itself is `3`. -/
theorem hexDigit_self {upper : Bool} {b : UInt8} (h : hexDigit upper (b.toNat / 16) = b) :
    b = 51 := by
  have hall : ∀ upper : Bool, ∀ k < 16, (hexDigit upper k).toNat / 16 = k →
      hexDigit upper k = 51 := by decide
  have hlt := b.toNat_lt
  have hb := hall upper (b.toNat / 16) (by omega) (by rw [h])
  exact h.symm.trans hb

/-- The digits of bytes begin with the bytes themselves only if all of them are `3`. -/
theorem take_hexText_iff (upper : Bool) (bytes : List UInt8) :
    (hexText upper bytes).take bytes.length = bytes ↔ ∀ b ∈ bytes, b = 51 := by
  constructor
  · -- each byte is one of the digits in front of it, and so on back to the first one
    suffices h : ∀ j, (List.replicate j 51 ++ hexText upper bytes).take bytes.length = bytes →
        ∀ b ∈ bytes, b = 51 from h 0
    induction bytes with
    | nil => exact fun _ _ _ hb => absurd hb List.not_mem_nil
    | cons b bytes ih =>
      intro j hj
      have htwo : hexDigit upper ((51 : UInt8).toNat / 16) = 51 ∧
          hexDigit upper ((51 : UInt8).toNat % 16) = 51 := by cases upper <;> decide
      rw [hexText_cons, List.length_cons] at hj
      cases j with
      | zero =>
        rw [List.replicate_zero, List.nil_append, List.take_succ_cons] at hj
        obtain ⟨hhead, htail⟩ := List.cons.inj hj
        have hb := hexDigit_self hhead
        rw [hb, htwo.2] at htail
        exact List.forall_mem_cons.mpr ⟨hb, ih 1 htail⟩
      | succ j =>
        rw [List.replicate_succ, List.cons_append, List.take_succ_cons] at hj
        obtain ⟨hhead, htail⟩ := List.cons.inj hj
        rw [← hhead, htwo.1, htwo.2] at htail
        have hmore : List.replicate j (51 : UInt8) ++ 51 :: 51 :: hexText upper bytes =
            List.replicate (j + 2) 51 ++ hexText upper bytes := by
          rw [← List.replicate_append_replicate, List.append_assoc]
          rfl
        rw [hmore] at htail
        exact List.forall_mem_cons.mpr ⟨hhead.symm, ih _ htail⟩
  · intro h
    have htext : hexText upper bytes = List.replicate (2 * bytes.length) 51 := by
      refine List.eq_replicate_iff.mpr ⟨length_hexText upper bytes, fun c hc => ?_⟩
      obtain ⟨b, hb, hc⟩ := List.mem_flatMap.mp hc
      rw [h b hb] at hc
      revert hc
      cases upper <;> simp [hexDigit]
    rw [htext, List.take_replicate, Nat.min_eq_left (by omega)]
    exact (List.eq_replicate_of_mem h).symm

/-- The bytes of an unsigned integer of `width` bytes, the lowest first. -/
def littleEndian : Nat → Nat → List UInt8
  | 0, _ => []
  | width + 1, n => UInt8.ofNat (n % 256) :: littleEndian width (n / 256)

/-- The integer in some bytes. -/
def ofLittleEndian (bytes : List UInt8) : Nat := bytes.foldr (fun b n => b.toNat + 256 * n) 0

theorem length_littleEndian (width n : Nat) : (littleEndian width n).length = width := by
  induction width generalizing n with
  | zero => rfl
  | succ width ih => rw [littleEndian, List.length_cons, ih]

theorem ofLittleEndian_littleEndian {width n : Nat} (h : n < 256 ^ width) :
    ofLittleEndian (littleEndian width n) = n := by
  induction width generalizing n with
  | zero => exact (Nat.lt_one_iff.mp h).symm
  | succ width ih =>
    rw [Nat.pow_succ] at h
    have hrest := ih (n := n / 256) (by omega)
    simp only [ofLittleEndian] at hrest
    simp only [littleEndian, ofLittleEndian, List.foldr_cons, hrest, UInt8.toNat_ofNat']
    omega

/-- A text in an array of `width` bytes. -/
def field (width : Nat) (text : List UInt8) : List UInt8 :=
  text ++ List.replicate (width - text.length) 0

/-- The array is longer than the text in it, so the text ends there. -/
theorem cstring_field {width : Nat} {text : List UInt8} (h : text.length < width)
    (beyond : List UInt8) : cstring (field width text ++ beyond) = cstring text := by
  obtain ⟨k, hk⟩ : ∃ k, width - text.length = k + 1 := ⟨width - text.length - 1, by omega⟩
  rw [field, hk, List.append_assoc, List.replicate_succ, List.cons_append, cstring_nul]

/-- The number of an array that holds nothing but digits. -/
theorem atoll_field {width : Nat} {digits : List UInt8} (h : ∀ c ∈ digits, isdigit c = true)
    (hlen : digits.length < width) : atoll (field width digits) = ofDecimal digits := by
  have htext : cstring (field width digits) = digits := by
    have hnul : 0 ∉ digits := fun hmem => (isdigit_chars (h 0 hmem)).2.1 rfl
    rw [← List.append_nil (field width digits), cstring_field hlen, ← List.append_nil digits,
      cstring_append hnul]
    rfl
  have hall : digits.takeWhile isdigit = digits := List.takeWhile_eq_self_iff.mpr h
  unfold atoll
  rw [htext]
  cases digits with
  | nil => rfl
  | cons c cs =>
    obtain ⟨hspace, -, hplus, hminus⟩ := isdigit_chars (h c List.mem_cons_self)
    rw [List.dropWhile_cons_of_neg (by rw [hspace]; decide), scanSign_eq hplus hminus]
    simp only [hall, Bool.false_eq_true, if_false]

/-- `bytes` stored from `buf + off` on. -/
def writeAt (buf : List UInt8) (off : Nat) (bytes : List UInt8) : List UInt8 :=
  buf.take off ++ bytes ++ buf.drop (off + bytes.length)

theorem writeAt_zero_writeAt (buf xs ys : List UInt8) :
    writeAt (writeAt buf 0 xs) xs.length ys = writeAt buf 0 (xs ++ ys) := by
  simp [writeAt, List.drop_append]

theorem drop_take_writeAt {buf : List UInt8} {off : Nat} (h : off ≤ buf.length) (bytes : List UInt8) :
    ((writeAt buf off bytes).drop off).take bytes.length = bytes := by
  have hlen : (buf.take off).length = off := by
    rw [List.length_take, Nat.min_eq_left h]
  rw [writeAt, List.append_assoc, List.drop_append_of_le_length (Nat.le_of_eq hlen.symm),
    List.drop_of_length_le (Nat.le_of_eq hlen), List.nil_append, List.take_left]

theorem take_writeAt (buf xs : List UInt8) : (writeAt buf 0 xs).take xs.length = xs := by
  simp [writeAt]

/-- A store within the buffer or past its end does not shorten it. -/
theorem length_writeAt_ge {buf : List UInt8} {off : Nat} (h : off ≤ buf.length)
    (bytes : List UInt8) : buf.length ≤ (writeAt buf off bytes).length := by
  simp only [writeAt, List.length_append, List.length_take, List.length_drop]
  omega

end Bytes
