import DemandPaging.Address

/-!
# Pages and their addresses

An address lies in one page. A page number below `PageNum.limit` is the page of its own base.
-/

namespace DemandPaging

/-- Pages below this have an address. -/
def PageNum.limit : PageNum := 4503599627370496

namespace Address

theorem page_lt (va : Address) : va.page < PageNum.limit := by
  have := va.word.toNat_lt
  show va.word.toNat / 4096 < 4503599627370496
  omega

theorem pageAbove_le (va : Address) : va.pageAbove ≤ PageNum.limit := by
  have := va.word.toNat_lt
  show (va.word.toNat + 4095) / 4096 ≤ 4503599627370496
  omega

theorem toNat_ofNat {n : Nat} (h : n < UInt64.size) : (ofNat n).toNat = n :=
  UInt64.toNat_ofNat_of_lt' h

theorem ext_toNat {va vb : Address} (h : va.toNat = vb.toNat) : va = vb := by
  cases va
  cases vb
  exact congrArg mk (UInt64.toNat_inj.mp h)

theorem toNat_advance (va : Address) (n : Nat) :
    (va.advance n).toNat = (va.toNat + n) % UInt64.size := UInt64.toNat_ofNat'

theorem toNat_retreat {va : Address} {n : Nat} (h : n ≤ va.toNat) :
    (va.retreat n).toNat = va.toNat - n := by
  have hva : va.toNat < UInt64.size := va.word.toNat_lt
  have hn : (UInt64.ofNat n).toNat = n := UInt64.toNat_ofNat_of_lt' (Nat.lt_of_le_of_lt h hva)
  have hle : UInt64.ofNat n ≤ va.word := UInt64.le_iff_toNat_le.mpr (hn.symm ▸ h)
  exact (UInt64.toNat_sub_of_le _ _ hle).trans (by rw [hn]; rfl)

/-- Going on in two steps. -/
theorem advance_advance (va : Address) (n i : Nat) :
    (va.advance n).advance i = va.advance (n + i) := by
  apply ext_toNat
  rw [toNat_advance, toNat_advance, toNat_advance, Nat.mod_add_mod, Nat.add_assoc]

theorem offset_lt (va : Address) : va.offset < pageSize := Nat.mod_lt _ (by decide)

/-- How many bytes there are from the address to the end of its page. -/
def room (va : Address) : Nat := pageSize - va.offset

theorem room_pos (va : Address) : 0 < va.room := Nat.sub_pos_of_lt va.offset_lt

/-- Going on inside a page. -/
theorem page_advance {va : Address} {n : Nat} (h : va.offset + n < pageSize) :
    (va.advance n).page = va.page ∧ (va.advance n).offset = va.offset + n := by
  have hva : va.toNat < 18446744073709551616 := va.word.toNat_lt
  have hin : va.toNat % 4096 + n < 4096 := h
  have hlt : va.toNat + n < UInt64.size := by
    show va.toNat + n < 18446744073709551616
    omega
  have hnat : (va.advance n).toNat = va.toNat + n := by
    rw [toNat_advance, Nat.mod_eq_of_lt hlt]
  constructor
  · show (va.advance n).toNat / 4096 = va.toNat / 4096
    omega
  · show (va.advance n).toNat % 4096 = va.toNat % 4096 + n
    omega

/-- Where there is room the page goes on. -/
theorem page_advance_of_lt (va : Address) {n : Nat} (h : n < va.room) :
    (va.advance n).page = va.page ∧ (va.advance n).offset = va.offset + n :=
  page_advance (Nat.add_lt_of_lt_sub' h)

/-- Different places of a range that does not wrap around have different addresses. -/
theorem advance_inj {va : Address} {i j : Nat} (hi : va.toNat + i < UInt64.size)
    (hj : va.toNat + j < UInt64.size) (h : va.advance i = va.advance j) : i = j := by
  have hnat := congrArg toNat h
  rw [toNat_advance, toNat_advance, Nat.mod_eq_of_lt hi, Nat.mod_eq_of_lt hj] at hnat
  exact Nat.add_left_cancel hnat

/-- Going on inside a page leaves less room. -/
theorem room_advance {va : Address} {n : Nat} (h : n < va.room) :
    (va.advance n).room = va.room - n := by
  rw [room, (va.page_advance_of_lt h).2, Nat.sub_add_eq]
  rfl

end Address

namespace PageNum

theorem toNat_base {v : PageNum} (h : v < limit) : (base v).toNat = v * pageSize := by
  have hlt : v * 4096 < 4503599627370496 * 4096 := Nat.mul_lt_mul_of_pos_right h (by decide)
  unfold base Address.ofNat Address.toNat
  rw [UInt64.toNat_ofNat']
  exact Nat.mod_eq_of_lt hlt

/-- The base of a page that has an address lies in that page. -/
theorem page_base {v : PageNum} (h : v < limit) : (base v).page = v := by
  rw [Address.page, toNat_base h]
  exact Nat.mul_div_cancel v (by decide)

/-- An address below the base of a page lies in a lower page. -/
theorem page_lt_of_lt_base {v : PageNum} {va : Address} (h : va.toNat < (base v).toNat) :
    va.page < v := by
  have hle : (base v).toNat ≤ v * pageSize := by
    unfold base Address.ofNat Address.toNat
    rw [UInt64.toNat_ofNat']
    exact Nat.mod_le _ _
  unfold Address.page
  exact Nat.div_lt_of_lt_mul (Nat.mul_comm v pageSize ▸ Nat.lt_of_lt_of_le h hle)

end PageNum

end DemandPaging
