/-
  Subject:   The relay's packages as they are documented: NaCl boxes and standard base64.
-/
import Frogg.Library.Base64
import Frogg.Library.NaclBox
import Frogg.Relay.ChannelPair

namespace Frogg.Relay

open Library

def naclPackages : Packages where
  scalarMult := NaclBox.scalarMult
  boxBefore := NaclBox.boxBefore
  boxAfter := NaclBox.boxAfter
  boxOpenAfter := NaclBox.boxOpenAfter
  fromByteArray bytes := String.ofList (Base64.encode bytes)
  toByteArray text := Base64.decode text.toList

theorem isBase64Char_digit {n : Nat} (h : n < 64) : isBase64Char (Base64.digit n) = true := by
  have hall : ∀ n : Fin 64, isBase64Char (Base64.digit n) = true := by decide
  exact hall ⟨n, h⟩

theorem isBase64Text_encode (bytes : Bytes) : isBase64Text (Base64.encode bytes) = true := by
  fun_induction Base64.encode bytes with
  | case1 => rfl
  | case2 a =>
    have ha := a.toNat_lt
    rw [isBase64Text, if_pos ⟨rfl, rfl⟩, isBase64Char_digit (by omega),
      isBase64Char_digit (by omega)]
    rfl
  | case3 a b =>
    have ha := a.toNat_lt
    have hb := b.toNat_lt
    rw [isBase64Text, if_pos ⟨rfl, rfl⟩, isBase64Char_digit (by omega),
      isBase64Char_digit (by omega), isBase64Char_digit (by omega), Bool.or_true]
    rfl
  | case4 a b c rest ih =>
    have ha := a.toNat_lt
    have hb := b.toNat_lt
    have hc := c.toNat_lt
    rw [isBase64Text, if_neg (fun h => Base64.digit_ne_pad (by omega) h.2), ih]
    simp only [List.all_cons, List.all_nil, isBase64Char_digit (by omega : a.toNat / 4 < 64),
      isBase64Char_digit (by omega : a.toNat % 4 * 16 + b.toNat / 16 < 64),
      isBase64Char_digit (by omega : b.toNat % 16 * 4 + c.toNat / 64 < 64),
      isBase64Char_digit (by omega : c.toNat % 64 < 64), Bool.and_true]

/-- The documented packages keep what the relay relies on. -/
theorem naclPackages_lawful : naclPackages.Lawful := by
  constructor
  · intro plaintext nonce key
    dsimp only [naclPackages]
    exact NaclBox.boxOpenAfter_boxAfter plaintext nonce key
  · intro bytes; dsimp only [naclPackages]; rw [String.toList_ofList, Base64.decode_encode]
  · intro bytes; dsimp only [naclPackages]; rw [String.toList_ofList, isBase64Text_encode]
  · intro bytes; dsimp only [naclPackages]; rw [String.toList_ofList, Base64.encode_length]

/-- `nacl.box.keyPair.fromSecretKey` -/
def keyPairOf (secretKey : Bytes) (h : secretKey.length = secretKeyLength) : KeyPair where
  publicKey := NaclBox.scalarMult secretKey NaclBox.basePoint
  secretKey := secretKey
  length_publicKey := NaclBox.length_toLittleEndian _ _
  length_secretKey := h

end Frogg.Relay
