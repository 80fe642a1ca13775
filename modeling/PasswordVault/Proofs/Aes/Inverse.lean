import PasswordVault.Aes.Cbc

/-!
# AES — decryption undoes encryption

Each step of a round is undone by a step of decryption, for any round keys. The one step with
algebra in it is the mixing of columns. `Column.mix` is linear over `Column.xor`, and mixing twice
adds to every byte four times the sum of it and its opposite (`Column.mix_mix`). Doing *that* twice
changes nothing, so mixing three more times undoes mixing.

Main statement: `Aes.decrypt_encrypt`, for blocks under a key.
-/

namespace PasswordVault
namespace Aes

/-! ## Bytes -/

/-- The second table read at the entries of the first gives all bytes in order. -/
theorem map_inverseSubstitution_substitution :
    (substitution.toList.map fun y => inverseSubstitution.toList.getD y.toNat 0) =
      (List.range 256).map UInt8.ofNat := by
  decide +kernel

theorem unsub_sub (x : UInt8) : unsub (sub x) = x := by
  have hentry := congrArg (fun table => table[x.toNat]?) map_inverseSubstitution_substitution
  simp only [List.getElem?_map, List.getElem?_range x.toNat_lt, Option.map_some,
    UInt8.ofNat_toNat, Option.map_eq_some_iff] at hentry
  rcases hentry with ⟨y, hy, hx⟩
  have hsub : sub x = y := by
    simp [sub, ← Array.getElem?_toList, hy]
  rw [hsub]
  simpa [unsub, ← Array.getElem?_toList] using hx

theorem xor_xor_cancel_left (x y : UInt8) : x ^^^ (x ^^^ y) = y := by
  rw [← UInt8.xor_assoc, UInt8.xor_self, UInt8.zero_xor]

theorem xor_left_comm (x y z : UInt8) : x ^^^ (y ^^^ z) = y ^^^ (x ^^^ z) := by
  rw [← UInt8.xor_assoc, UInt8.xor_comm x y, UInt8.xor_assoc]

/-- Doubling is linear: what overflows out of a sum is the sum of what overflows. -/
theorem double_xor (x y : UInt8) : double (x ^^^ y) = double x ^^^ double y := by
  have hhigh : ∀ z : UInt8, 0x80 ≤ z ↔ z.toBitVec.msb = true := by
    intro z
    rw [BitVec.msb_eq_decide, decide_eq_true_eq, UInt8.le_iff_toNat_le]
    rfl
  have hshift : (x ^^^ y) <<< 1 = x <<< 1 ^^^ y <<< 1 := by
    apply UInt8.toBitVec_inj.1
    simp [BitVec.shiftLeft_xor_distrib]
  simp only [double, hhigh, UInt8.toBitVec_xor, BitVec.msb_xor, hshift]
  cases x.toBitVec.msb <;> cases y.toBitVec.msb <;>
    simp [UInt8.xor_assoc, UInt8.xor_comm, xor_left_comm]

/-- A byte of a mixed column: `t` is the sum of the column and `y` the next byte. -/
def mixByte (t x y : UInt8) : UInt8 := x ^^^ t ^^^ double (x ^^^ y)

theorem mixByte_xor_mixByte (t x y z : UInt8) :
    mixByte t x y ^^^ mixByte t y z = x ^^^ y ^^^ double (x ^^^ z) := by
  simp only [mixByte, double_xor, UInt8.xor_assoc, UInt8.xor_comm, xor_left_comm,
    xor_xor_cancel_left]

theorem mixByte_mixByte (t x y z : UInt8) :
    mixByte t (mixByte t x y) (mixByte t y z) = x ^^^ double (double (x ^^^ z)) := by
  rw [mixByte, mixByte_xor_mixByte, double_xor (x ^^^ y), mixByte]
  generalize double (x ^^^ y) = p
  generalize double (double (x ^^^ z)) = q
  simp only [UInt8.xor_comm, xor_left_comm, xor_xor_cancel_left]

/-- Mixing keeps the sum of a column. -/
theorem mixByte_sum {a b c d t : UInt8} (ht : a ^^^ b ^^^ c ^^^ d = t) :
    mixByte t a b ^^^ mixByte t b c ^^^ mixByte t c d ^^^ mixByte t d a = t := by
  rw [mixByte_xor_mixByte, UInt8.xor_assoc, mixByte_xor_mixByte, ← ht]
  simp only [double_xor, UInt8.xor_assoc, UInt8.xor_comm, xor_left_comm, UInt8.xor_self,
    UInt8.xor_zero]

/-! ## Columns -/

namespace Column

theorem xor_xor_cancel (x y : Column) : (x.xor y).xor y = x := by
  simp only [xor, UInt8.xor_assoc, UInt8.xor_self, UInt8.xor_zero]

/-- What mixing twice adds up to. -/
def foldOpposites (x : Column) : Column :=
  let u := double (double (x.a ^^^ x.c))
  let v := double (double (x.b ^^^ x.d))
  ⟨x.a ^^^ u, x.b ^^^ v, x.c ^^^ u, x.d ^^^ v⟩

/-- Mixing twice leaves opposite bytes with four times their sum added. -/
theorem mix_mix (x : Column) : mix (mix x) = foldOpposites x := by
  rcases x with ⟨a, b, c, d⟩
  have hmix : ∀ a b c d t : UInt8, a ^^^ b ^^^ c ^^^ d = t →
      mix ⟨a, b, c, d⟩ = ⟨mixByte t a b, mixByte t b c, mixByte t c d, mixByte t d a⟩ := by
    rintro a b c d t rfl
    rfl
  rw [hmix a b c d _ rfl, hmix _ _ _ _ _ (mixByte_sum rfl)]
  simp only [mixByte_mixByte, foldOpposites, UInt8.xor_comm c a, UInt8.xor_comm d b]

theorem foldOpposites_foldOpposites (x : Column) : foldOpposites (foldOpposites x) = x := by
  have hsum : ∀ y z u : UInt8, (y ^^^ u) ^^^ (z ^^^ u) = y ^^^ z := by
    intro y z u
    rw [UInt8.xor_comm z u, UInt8.xor_assoc, xor_xor_cancel_left]
  simp only [foldOpposites, hsum, UInt8.xor_assoc, UInt8.xor_self, UInt8.xor_zero]

theorem unmix_mix (x : Column) : unmix (mix x) = x := by
  calc
    unmix (mix x) = mix (foldOpposites (mix x)) := rfl
    _ = mix (mix (mix (mix x))) := by rw [← mix_mix (mix x)]
    _ = x := by rw [mix_mix, mix_mix, foldOpposites_foldOpposites]

theorem map_unsub_map_sub (x : Column) : (x.map sub).map unsub = x := by
  simp [map, unsub_sub]

end Column

/-! ## States -/

namespace State

theorem xor_xor_cancel (s t : State) : (s.xor t).xor t = s := by
  simp [xor, Column.xor_xor_cancel]

theorem map_unmix_map_mix (s : State) : (s.map Column.mix).map Column.unmix = s := by
  simp [map, Column.unmix_mix]

theorem gather_scatter (s : State) : s.scatter.gather = s := by
  have hrows : ∀ t : State, t.shiftRows.unshiftRows = t := fun _ => rfl
  rw [gather, scatter, hrows]
  simp [map, Column.map_unsub_map_sub]

theorem ofBlock_toBlock (s : State) : ofBlock s.toBlock = s :=
  rfl

theorem toBlock_ofBlock (b : Block 16) : (ofBlock b).toBlock = b := by
  rcases b with ⟨bytes, hlength⟩
  match bytes, hlength with
  | [_, _, _, _, _, _, _, _, _, _, _, _, _, _, _, _], _ => rfl

end State

/-! ## Rounds -/

namespace Schedule

/-- One inner round and the round that undoes it. -/
theorem unround_round (s key : State) :
    ((((s.scatter.map Column.mix).xor key).xor key).map Column.unmix).gather = s := by
  rw [State.xor_xor_cancel, State.map_unmix_map_mix, State.gather_scatter]

/-- The inner rounds are undone from the last to the first. -/
theorem unrounds_rounds (keys : List State) (s : State) :
    keys.foldr (fun key s => ((s.xor key).map Column.unmix).gather)
      (keys.foldl (fun s key => (s.scatter.map Column.mix).xor key) s) = s := by
  induction keys generalizing s with
  | nil => rfl
  | cons key rest ih => rw [List.foldl_cons, List.foldr_cons, ih, unround_round]

/-- Under any round keys a block that was encrypted is decrypted to itself. -/
theorem decrypt_encrypt (k : Schedule) (s : State) : k.decrypt (k.encrypt s) = s := by
  rw [decrypt, encrypt, State.xor_xor_cancel, State.gather_scatter, unrounds_rounds,
    State.xor_xor_cancel]

end Schedule

/-- Under any key a block is decrypted to what was encrypted. -/
theorem decrypt_encrypt (key : Bytes) (b : Block 16) :
    (Aes.cipher key).decrypt ((Aes.cipher key).encrypt b) = b := by
  simp only [Aes.cipher, State.ofBlock_toBlock, Schedule.decrypt_encrypt, State.toBlock_ofBlock]

end Aes
end PasswordVault
