import Mathlib.Algebra.Order.Ring.Nat
import IBoxClient.Lib.Reading
import IBoxClient.Lib.Rounds

/- Domain names in a DNS message, and `parse_name` (`dns.c`).

   A name is a sequence of labels, each behind its length, that ends with an empty one; instead of
   the rest of a name there may be a pointer to where it stands. `NameAt` says what name stands at
   an offset, and how many bytes it takes there. In it a pointer does not lead to another pointer,
   as the source takes the byte that it leads to for a length.

   `parse_name` accepts exactly the names that are not too long for it, and returns how many bytes
   they take (`parseName_iff`). It always ends: a pointer that leads back makes a name too long.
   It stores a byte more than there is room for exactly if a name takes all of the room
   (`parseName_overflows_iff`). -/
namespace IBoxClient

open Memory

abbrev dot : UInt8 := 46

/-! ## parse_name -/

/-- The variables of `parse_name`, and what it has stored. -/
structure NameState where
  cp : Nat
  len : Int
  clen : Nat
  indirect : Bool
  nseg : Nat
  stored : List UInt8

/-- What it returns, -1 if there is nothing, and what it has stored. -/
structure ParsedName where
  clen : Option Nat
  stored : List UInt8

/-- The bytes from an offset on. -/
def bytesAt (mem : Nat → UInt8) (p n : Nat) : List UInt8 := (List.range n).map fun k => mem (p + k)

/-- A round of the loop from where `slen` is known. -/
def nameSegment (mem : Nat → UInt8) (slen : UInt8) (s : NameState) : ParsedName ⊕ NameState :=
  if slen = 0 then .inl ⟨some s.clen, (if s.nseg = 0 then s.stored ++ [dot] else s.stored) ++ [0]⟩
  else if s.len - (slen.toNat + 1) < 0 then .inl ⟨none, s.stored⟩
  else .inr {
    cp := s.cp + slen.toNat
    len := s.len - (slen.toNat + 1)
    clen := if s.indirect then s.clen else s.clen + slen.toNat
    indirect := s.indirect
    nseg := s.nseg + 1
    stored := s.stored ++ bytesAt mem s.cp slen.toNat ++ [dot] }

/-- The two high bits of a length make a pointer of it. -/
def isPointer (slen : UInt8) : Prop := slen &&& 0xc0 = 0xc0

instance (slen : UInt8) : Decidable (isPointer slen) := inferInstanceAs (Decidable (_ = _))

/-- Where a pointer leads to. -/
def target (mem : Nat → UInt8) (p : Nat) : Nat :=
  (mem p &&& 0x3f).toNat * 256 + (mem (p + 1)).toNat

/-- One round of the loop of `parse_name`. -/
def nameRound (mem : Nat → UInt8) (s : NameState) : ParsedName ⊕ NameState :=
  let slen := mem s.cp
  let clen := if s.indirect then s.clen else s.clen + 1
  if isPointer slen then
    let clen := if s.indirect then clen else clen + 1
    let cp := target mem s.cp
    nameSegment mem (mem cp) { s with cp := cp + 1, clen := clen, indirect := true }
  else nameSegment mem slen { s with cp := s.cp + 1, clen := clen }

/-- `parse_name`, with as many rounds as its length allows. -/
def parseName (mem : Nat → UInt8) (compressed len : Nat) : ParsedName :=
  (Rounds.ends (nameRound mem) (len + 1) ⟨compressed, len, 0, false, 0, []⟩).getD ⟨none, []⟩

section Rounds
variable {mem : Nat → UInt8} {s : NameState}

/-- A round ends the loop, or takes a label and the room for it. -/
theorem nameSegment_cases (mem : Nat → UInt8) (slen : UInt8) (s : NameState) :
    (∃ r, nameSegment mem slen s = .inl r) ∨
      ∃ s', nameSegment mem slen s = .inr s' ∧ 0 ≤ s'.len ∧ s'.len < s.len := by
  unfold nameSegment
  by_cases hroot : slen = 0
  · rw [if_pos hroot]
    exact .inl ⟨_, rfl⟩
  · rw [if_neg hroot]
    by_cases hlong : s.len - (slen.toNat + 1) < 0
    · rw [if_pos hlong]
      exact .inl ⟨_, rfl⟩
    · rw [if_neg hlong]
      refine .inr ⟨_, rfl, Int.not_lt.mp hlong, ?_⟩
      show s.len - (slen.toNat + 1) < s.len
      omega

theorem nameRound_cases (mem : Nat → UInt8) (s : NameState) :
    (∃ r, nameRound mem s = .inl r) ∨
      ∃ s', nameRound mem s = .inr s' ∧ 0 ≤ s'.len ∧ s'.len < s.len := by
  unfold nameRound
  by_cases hptr : isPointer (mem s.cp)
  · simp only [if_pos hptr]
    exact nameSegment_cases mem _ _
  · simp only [if_neg hptr]
    exact nameSegment_cases mem _ _

/-- **The loop ends.** -/
theorem parseName_ends (mem : Nat → UInt8) (compressed len : Nat) :
    Rounds.ends (nameRound mem) (len + 1) ⟨compressed, len, 0, false, 0, []⟩ =
      some (parseName mem compressed len) := by
  let rank : NameState → Nat := fun s => s.len.toNat
  have hround : ∀ s : NameState, 0 ≤ s.len → (∃ r, nameRound mem s = .inl r ∧ True) ∨
      ∃ s', nameRound mem s = .inr s' ∧ 0 ≤ s'.len ∧ rank s' < rank s ∧
        ∀ _ : ParsedName, True → True := by
    intro s hs
    rcases nameRound_cases mem s with ⟨r, hr⟩ | ⟨s', hr, hge, hlt⟩
    · exact .inl ⟨r, hr, trivial⟩
    · have hdown : rank s' < rank s := by
        simp only [rank]
        omega
      exact .inr ⟨s', hr, hge, hdown, fun _ h => h⟩
  have hlen : (0 : Int) ≤ len := Int.natCast_nonneg len
  obtain ⟨r, hr, -⟩ := Rounds.ends_of_rank (I := fun s => 0 ≤ s.len) (Q := fun _ _ => True) rank
    hround (s := ⟨compressed, len, 0, false, 0, []⟩) hlen
  simp only [rank] at hr
  rw [Int.toNat_natCast] at hr
  rw [parseName, hr]
  rfl

end Rounds

/-! ## Names -/

/-- The name at an offset, and how many bytes it takes there. -/
inductive NameAt (mem : Nat → UInt8) : Nat → List (List UInt8) → Nat → Prop where
  | root {p : Nat} (h : mem p = 0) : NameAt mem p [] 1
  | label {p k : Nat} {l : List UInt8} {ls : List (List UInt8)} (hne : l ≠ [])
    (hshort : l.length < 64) (hlen : mem p = UInt8.ofNat l.length) (hl : Holds mem (p + 1) l)
    (hrest : NameAt mem (p + 1 + l.length) ls k) : NameAt mem p (l :: ls) (1 + l.length + k)
  | pointer {p k : Nat} {ls : List (List UInt8)} (hptr : isPointer (mem p))
    (hdirect : ¬ isPointer (mem (target mem p))) (hrest : NameAt mem (target mem p) ls k) :
    NameAt mem p ls 2

/-- The room that a name takes as a text, without the NUL. -/
def nameSize (ls : List (List UInt8)) : Nat := (ls.map fun l => l.length + 1).sum

/-- A name as a text, behind some labels: each label with a dot, and a dot for the root. -/
def nameText (nseg : Nat) (ls : List (List UInt8)) : List UInt8 :=
  (if nseg = 0 ∧ ls = [] then [dot] else ls.flatMap fun l => l ++ [dot]) ++ [0]

section Names
variable {mem : Nat → UInt8} {p k : Nat} {ls : List (List UInt8)} {s : NameState}

theorem isPointer_ge {b : UInt8} (h : isPointer b) : 192 ≤ b.toNat := by
  have hle : (b &&& 0xc0).toNat ≤ b.toNat := by
    rw [UInt8.toNat_and]
    exact Nat.and_le_left
  rw [h] at hle
  exact hle

theorem bytesAt_length (mem : Nat → UInt8) (p n : Nat) : (bytesAt mem p n).length = n := by
  rw [bytesAt, List.length_map, List.length_range]

theorem holds_bytesAt (mem : Nat → UInt8) (p n : Nat) : Holds mem p (bytesAt mem p n) := by
  rw [holds_iff]
  intro j hj
  simp only [bytesAt, List.getElem_map, List.getElem_range]

theorem bytesAt_of_holds {l : List UInt8} (h : Holds mem p l) : bytesAt mem p l.length = l := by
  apply List.ext_getElem (bytesAt_length mem p _)
  intro j hj hj'
  have hat := holds_iff.mp h j hj'
  simp only [bytesAt, List.getElem_map, List.getElem_range, hat]

theorem nameText_label (nseg : Nat) (l : List UInt8) (ls : List (List UInt8)) :
    nameText nseg (l :: ls) = l ++ [dot] ++ nameText (nseg + 1) ls := by
  have hnil : ¬ (nseg = 0 ∧ l :: ls = []) := fun h => by cases h.2
  have hseg : ¬ (nseg + 1 = 0 ∧ ls = []) := fun h => by cases h.1
  rw [nameText, nameText, if_neg hnil, if_neg hseg, List.flatMap_cons, List.append_assoc]

/-- What a round makes of a pointer. -/
def NameState.jump (s : NameState) (q : Nat) : NameState :=
  { s with
    cp := q
    clen := if s.indirect then s.clen else s.clen + 2
    indirect := true }

/-- A pointer is followed within the round. -/
theorem nameRound_pointer (hptr : isPointer (mem s.cp))
    (hdirect : ¬ isPointer (mem (target mem s.cp))) :
    nameRound mem s = nameRound mem (s.jump (target mem s.cp)) := by
  cases hind : s.indirect <;> simp [nameRound, NameState.jump, hptr, hdirect, hind]

theorem nameRound_root (hroot : mem s.cp = 0) :
    nameRound mem s =
      .inl ⟨some (if s.indirect then s.clen else s.clen + 1), s.stored ++ nameText s.nseg []⟩ := by
  have hptr : ¬ isPointer 0 := by decide
  by_cases hseg : s.nseg = 0 <;> simp [nameRound, nameSegment, nameText, hroot, hptr, hseg]

/-- What a round makes of a label. -/
def NameState.take (s : NameState) (l : List UInt8) : NameState where
  cp := s.cp + 1 + l.length
  len := s.len - (l.length + 1)
  clen := if s.indirect then s.clen else s.clen + 1 + l.length
  indirect := s.indirect
  nseg := s.nseg + 1
  stored := s.stored ++ l ++ [dot]

theorem nameRound_label {slen : UInt8} (hslen : mem s.cp = slen) (hptr : ¬ isPointer slen)
    (hne : slen ≠ 0) (hfits : (slen.toNat : Int) + 1 ≤ s.len) :
    nameRound mem s = .inr (s.take (bytesAt mem (s.cp + 1) slen.toNat)) := by
  have hroom : ¬ s.len - (slen.toNat + 1) < 0 := by omega
  cases hind : s.indirect <;>
    simp [nameRound, nameSegment, NameState.take, hslen, hptr, hne, hroom, bytesAt_length, hind]

/-- **What is well formed is accepted**, if there is room for it. -/
theorem NameAt.ends (h : NameAt mem p ls k) (s : NameState) (hcp : s.cp = p)
    (hfits : (nameSize ls : Int) ≤ s.len) :
    Rounds.Ends (nameRound mem) s
      ⟨some (if s.indirect then s.clen else s.clen + k), s.stored ++ nameText s.nseg ls⟩ := by
  induction h generalizing s with
  | root hroot =>
    rw [← hcp] at hroot
    exact ⟨1, Rounds.ends_succ_inl (nameRound_root hroot) 0⟩
  | @label p k l ls hne hshort hlen hl hrest ih =>
    subst hcp
    have hbyte : (UInt8.ofNat l.length).toNat = l.length :=
      UInt8.toNat_ofNat_of_lt' (Nat.lt_trans hshort (by decide))
    have hsize : nameSize (l :: ls) = l.length + 1 + nameSize ls := List.sum_cons
    have hpos := List.length_pos_of_ne_nil hne
    have hptr : ¬ isPointer (UInt8.ofNat l.length) := by
      intro hptr
      have hge := isPointer_ge hptr
      omega
    have hzero : UInt8.ofNat l.length ≠ 0 := by
      intro hzero
      rw [hzero] at hbyte
      exact absurd hbyte.symm (Nat.ne_of_gt hpos)
    have hround := nameRound_label hlen hptr hzero (by omega)
    rw [hbyte, bytesAt_of_holds hl] at hround
    have hroom : (nameSize ls : Int) ≤ (s.take l).len := by
      show (nameSize ls : Int) ≤ s.len - (l.length + 1)
      omega
    obtain ⟨n, hn⟩ := ih (s.take l) rfl hroom
    refine ⟨n + 1, ?_⟩
    rw [Rounds.ends_succ_inr hround, hn, nameText_label]
    cases hind : s.indirect <;> simp [NameState.take, hind, Nat.add_assoc]
  | @pointer p k ls hptr hdirect hrest ih =>
    subst hcp
    have hround := nameRound_pointer hptr hdirect
    obtain ⟨n, hn⟩ := ih (s.jump (target mem s.cp)) rfl hfits
    cases n with
    | zero => cases hn
    | succ n =>
      refine ⟨n + 1, ?_⟩
      rw [Rounds.ends, hround, ← Rounds.ends, hn]
      simp [NameState.jump]

/-- A length that is too long. -/
theorem nameSegment_long {slen : UInt8} (hlong : s.len < slen.toNat + 1) (hne : slen ≠ 0) :
    nameSegment mem slen s = .inl ⟨none, s.stored⟩ := by
  have hneg : s.len - (slen.toNat + 1) < 0 := by omega
  rw [nameSegment, if_neg hne, if_pos hneg]

/-- A pointer to a pointer is taken for a length, which is too long. -/
theorem nameRound_indirect (hshort : s.len ≤ 63) (hptr : isPointer (mem s.cp))
    (hindirect : isPointer (mem (target mem s.cp))) :
    nameRound mem s = .inl ⟨none, s.stored⟩ := by
  have hge := isPointer_ge hindirect
  have hne : mem (target mem s.cp) ≠ 0 := by
    intro hzero
    rw [hzero] at hge
    exact absurd hge (by decide)
  simp only [nameRound, if_pos hptr]
  exact nameSegment_long (by show s.len < _; omega) hne

/-- **What is accepted is well formed.** The induction is on the rounds; a pointer leads to a place
that is then read as if it stood there. -/
theorem nameAt_of_ends {n k' : Nat} {stored : List UInt8} (hshort : s.len ≤ 63)
    (hroom : 0 ≤ s.len) (h : Rounds.ends (nameRound mem) n s = some ⟨some k', stored⟩) :
    ∃ ls k, NameAt mem s.cp ls k ∧ (nameSize ls : Int) ≤ s.len ∧
      k' = (if s.indirect then s.clen else s.clen + k) ∧
      stored = s.stored ++ nameText s.nseg ls := by
  induction n generalizing s with
  | zero => cases h
  | succ n ih =>
    -- where there is no pointer
    have direct : ∀ s : NameState, s.len ≤ 63 → 0 ≤ s.len → ¬ isPointer (mem s.cp) →
        Rounds.ends (nameRound mem) (n + 1) s = some ⟨some k', stored⟩ →
        ∃ ls k, NameAt mem s.cp ls k ∧ (nameSize ls : Int) ≤ s.len ∧
          k' = (if s.indirect then s.clen else s.clen + k) ∧
          stored = s.stored ++ nameText s.nseg ls := by
      intro s hshort hroom hptr h
      by_cases hroot : mem s.cp = 0
      · rw [Rounds.ends_succ_inl (nameRound_root hroot)] at h
        cases h
        exact ⟨[], 1, .root hroot, hroom, rfl, rfl⟩
      · by_cases hlong : s.len < (mem s.cp).toNat + 1
        · have hround : nameRound mem s = .inl ⟨none, s.stored⟩ := by
            simp only [nameRound, if_neg hptr]
            exact nameSegment_long hlong hroot
          rw [Rounds.ends_succ_inl hround] at h
          cases h
        · have hround := nameRound_label rfl hptr hroot (Int.not_lt.mp hlong)
          set l := bytesAt mem (s.cp + 1) (mem s.cp).toNat with hl
          have hlen : l.length = (mem s.cp).toNat := bytesAt_length _ _ _
          have hbyte : mem s.cp = UInt8.ofNat l.length := by
            rw [hlen, UInt8.ofNat_toNat]
          have hne : l ≠ [] := by
            intro hnil
            rw [hnil] at hbyte
            exact hroot hbyte
          rw [Rounds.ends_succ_inr hround] at h
          have hrest : (s.take l).len = s.len - (l.length + 1) := rfl
          obtain ⟨ls, k, hname, hsize, hclen, hstored⟩ := ih (by omega) (by omega) h
          have hsum : nameSize (l :: ls) = l.length + 1 + nameSize ls := List.sum_cons
          refine ⟨l :: ls, 1 + l.length + k, ?_, by omega, ?_, ?_⟩
          · exact .label hne (by omega) hbyte (holds_bytesAt _ _ _) hname
          · rw [hclen]
            cases hind : s.indirect <;> simp [NameState.take, hind, Nat.add_assoc]
          · rw [hstored, nameText_label]
            simp [NameState.take]
    by_cases hptr : isPointer (mem s.cp)
    · by_cases hindirect : isPointer (mem (target mem s.cp))
      · rw [Rounds.ends_succ_inl (nameRound_indirect hshort hptr hindirect)] at h
        cases h
      · rw [Rounds.ends, nameRound_pointer hptr hindirect, ← Rounds.ends] at h
        obtain ⟨ls, k, hname, hsize, hclen, hstored⟩ :=
          direct (s.jump (target mem s.cp)) hshort hroom hindirect h
        exact ⟨ls, 2, .pointer hptr hindirect hname, hsize, hclen, hstored⟩
    · exact direct s hshort hroom hptr h

/-- **Exactly the names that fit are accepted**, with the bytes that they take. -/
theorem parseName_iff {len : Nat} {stored : List UInt8} (hlen : len ≤ 63) :
    parseName mem p len = ⟨some k, stored⟩ ↔
      ∃ ls, NameAt mem p ls k ∧ nameSize ls ≤ len ∧ stored = nameText 0 ls := by
  have hends := parseName_ends mem p len
  constructor
  · intro h
    rw [h] at hends
    obtain ⟨ls, k', hname, hsize, hclen, hstored⟩ :=
      nameAt_of_ends (s := ⟨p, len, 0, false, 0, []⟩) (by show (len : Int) ≤ 63; omega)
        (Int.natCast_nonneg len) hends
    have hk : k = k' := by simpa using hclen
    subst hk
    exact ⟨ls, hname, Int.ofNat_le.mp hsize, by simpa using hstored⟩
  · rintro ⟨ls, hname, hsize, rfl⟩
    obtain ⟨n, hn⟩ := hname.ends ⟨p, len, 0, false, 0, []⟩ rfl (Int.ofNat_le.mpr hsize)
    have hsame := Rounds.ends_unique hends hn
    simpa using hsame

/-! ## The buffer -/

theorem nameSize_eq (ls : List (List UInt8)) :
    nameSize ls = (ls.flatMap fun l => l ++ [dot]).length := by
  simp [nameSize, List.length_flatMap]

/-- The room that is left and the room that is taken. -/
theorem nameSegment_room (slen : UInt8) (s : NameState) :
    (∀ stored, nameSegment mem slen s = .inl ⟨none, stored⟩ → stored = s.stored) ∧
      ∀ s', nameSegment mem slen s = .inr s' →
        (s'.stored.length : Int) + s'.len = s.stored.length + s.len ∧ 0 ≤ s'.len := by
  by_cases hroot : slen = 0
  · simp [nameSegment, hroot]
  by_cases hlong : s.len < slen.toNat + 1
  · simp [nameSegment_long hlong hroot]
  · have hroom : ¬ s.len - (slen.toNat + 1) < 0 := by omega
    constructor
    · intro stored h
      rw [nameSegment, if_neg hroot, if_neg hroom] at h
      cases h
    · intro s' h
      rw [nameSegment, if_neg hroot, if_neg hroom] at h
      cases h
      simp only [List.length_append, bytesAt_length, List.length_cons, List.length_nil]
      omega

theorem nameRound_room (mem : Nat → UInt8) (s : NameState) :
    (∀ stored, nameRound mem s = .inl ⟨none, stored⟩ → stored = s.stored) ∧
      ∀ s', nameRound mem s = .inr s' →
        (s'.stored.length : Int) + s'.len = s.stored.length + s.len ∧ 0 ≤ s'.len := by
  unfold nameRound
  by_cases hptr : isPointer (mem s.cp)
  · simp only [if_pos hptr]
    exact nameSegment_room _ _
  · simp only [if_neg hptr]
    exact nameSegment_room _ _

/-- Where nothing is returned, the room has been enough. -/
theorem stored_le_of_none {n : Nat} {stored : List UInt8} (hroom : 0 ≤ s.len)
    (h : Rounds.ends (nameRound mem) n s = some ⟨none, stored⟩) :
    (stored.length : Int) ≤ s.stored.length + s.len := by
  induction n generalizing s with
  | zero => cases h
  | succ n ih =>
    obtain ⟨hnone, hgoes⟩ := nameRound_room mem s
    cases hround : nameRound mem s with
    | inl r =>
      rw [Rounds.ends_succ_inl hround] at h
      cases h
      rw [hnone stored hround]
      omega
    | inr s' =>
      obtain ⟨hsum, hpos⟩ := hgoes s' hround
      rw [Rounds.ends_succ_inr hround] at h
      have hle := ih hpos h
      omega

/-- **A byte too many** is stored exactly if a name takes all of the room. -/
theorem parseName_overflows_iff (mem : Nat → UInt8) (p : Nat) {len : Nat}
    (hlen : 2 ≤ len ∧ len ≤ 63) :
    len < (parseName mem p len).stored.length ↔ ∃ ls k, NameAt mem p ls k ∧ nameSize ls = len := by
  have hends := parseName_ends mem p len
  constructor
  · intro hlong
    cases hparse : parseName mem p len with
    | mk clen stored =>
      rw [hparse] at hends hlong
      cases clen with
      | none =>
        have hle := stored_le_of_none (s := ⟨p, len, 0, false, 0, []⟩) (Int.natCast_nonneg len) hends
        have hfits : (stored.length : Int) ≤ 0 + len := hle
        have hover : len < stored.length := hlong
        omega
      | some k =>
        obtain ⟨ls, hname, hsize, rfl⟩ := (parseName_iff hlen.2).mp hparse
        refine ⟨ls, k, hname, ?_⟩
        have hover : len < (nameText 0 ls).length := hlong
        rw [nameSize_eq] at hsize ⊢
        rw [nameText, List.length_append] at hover
        by_cases hnil : ls = []
        · subst hnil
          simp at hover
          omega
        · simp [hnil] at hover hsize ⊢
          omega
  · rintro ⟨ls, k, hname, hsize⟩
    have hparse := (parseName_iff (k := k) hlen.2).mpr ⟨ls, hname, Nat.le_of_eq hsize, rfl⟩
    have hnil : ls ≠ [] := by
      rintro rfl
      have hzero : 0 = len := hsize
      omega
    rw [hparse]
    show len < (nameText 0 ls).length
    rw [nameText, List.length_append, if_neg (fun h => hnil h.2), ← nameSize_eq, hsize]
    exact Nat.lt_succ_self len

/-- A message with a name of one label of 23 letters. -/
def longLabel : Nat → UInt8 := fun k => if k = 0 then 23 else if k ≤ 23 then 97 else 0

theorem parseName_overflows_longLabel : 24 < (parseName longLabel 0 24).stored.length := by
  have hroot : NameAt longLabel 24 [] 1 := .root rfl
  have hletters : Holds longLabel 1 (List.replicate 23 97) := by decide
  have hname : NameAt longLabel 0 [List.replicate 23 97] 25 :=
    @NameAt.label longLabel 0 1 (List.replicate 23 97) [] (by simp) (by simp) rfl hletters hroot
  exact (parseName_overflows_iff longLabel 0 (by decide)).mpr ⟨_, _, hname, rfl⟩

end Names

end IBoxClient
