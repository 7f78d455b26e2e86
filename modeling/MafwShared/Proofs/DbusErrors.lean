import MafwShared.MafwDbus

/-!
# Errors over the bus

An error is one text on the bus: the domain, the code as an unsigned number and the message, with
colons between them. Only the first two colons are looked for, so that the message may have
colons of its own, and a negative code comes back as the number it was.
-/

namespace MafwShared.MafwDbus
open CLib

lemma not_mem_decimal {c : UInt8} (h : isdigit c = false) (n : Nat) : c ∉ decimal n := by
  intro hmem
  rw [mem_decimal hmem] at h
  cases h

lemma scanUnsigned_code (code : Int32) :
    (scanUnsigned (decimal code.toUInt32.toNat)).map (fun r => (UInt32.ofNat r.1).toInt32) = some code := by
  have hscan := scanUnsigned_decimal (t := []) (UInt32.toNat_lt code.toUInt32) rfl
  rw [List.append_nil] at hscan
  rw [hscan, Option.map_some, UInt32.ofNat_toNat, Int32.toInt32_toUInt32]

lemma mafwErrorName_foreign : dbusErrorPrefix.isPrefixOf mafwErrorName = false := rfl

lemma errorToGerror_error (notAvailable : Int32) (caller : Bytes) {domain : Bytes} (h : 58 ∉ domain) (code : Int32)
    (message : Bytes) : mafwDbusErrorToGerror notAvailable caller (mafwDbusError domain code message) =
      some { domain := domain, code := code, message := message } := by
  have hcode : 58 ∉ decimal code.toUInt32.toNat := not_mem_decimal rfl _
  obtain ⟨r, hscan, hr⟩ := Option.map_eq_some_iff.mp (scanUnsigned_code code)
  rw [mafwDbusErrorToGerror, mafwDbusError, mafwErrorName_foreign, if_neg Bool.false_ne_true]
  simp only [Option.bind_eq_bind, Option.bind_some, cutAt_append h, cutAt_append hcode, hscan, hr]
  rfl

/-- An error whose domain has no colon is received as it was sent. -/
theorem errorToGerror_gerror (notAvailable : Int32) (domain : Bytes) {error : GError} (h : 58 ∉ error.domain) :
    dbusErrorPrefix.isPrefixOf (mafwDbusGerror error).name = false ∧
    mafwDbusErrorToGerror notAvailable domain (mafwDbusGerror error) = some error := by
  have hcode : 58 ∉ decimal error.code.toUInt32.toNat := not_mem_decimal rfl _
  have hdomain := cutAt_append h (decimal error.code.toUInt32.toNat ++ 58 :: error.message)
  obtain ⟨r, hscan, hr⟩ := Option.map_eq_some_iff.mp (scanUnsigned_code error.code)
  refine ⟨mafwErrorName_foreign, ?_⟩
  rw [mafwDbusErrorToGerror, mafwDbusGerror, mafwDbusError, mafwErrorName_foreign, if_neg Bool.false_ne_true]
  simp only [Option.bind_eq_bind, Option.bind_some, hdomain, cutAt_append hcode, hscan, hr]
  rfl

/-- Code -1 and a message with colons and digits in an empty domain. -/
theorem errorToGerror_gerror_minusOne :
    dbusErrorPrefix.isPrefixOf (mafwDbusGerror ⟨[], -1, [58, 55, 58]⟩).name = false ∧
    mafwDbusErrorToGerror 0 [] (mafwDbusGerror ⟨[], -1, [58, 55, 58]⟩) = some ⟨[], -1, [58, 55, 58]⟩ :=
  errorToGerror_gerror 0 [] (List.not_mem_nil)

end MafwShared.MafwDbus
