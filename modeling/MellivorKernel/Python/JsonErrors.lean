import MellivorKernel.Foundation.Returns
import MellivorKernel.Python.JsonScan

/-!
# What decoding raises

`json.loads` of a text raises nothing but `ValueError`s: a `JSONDecodeError`,
or what `int` raises for too many digits.
-/

namespace Python

open Foundation

def ScanError.IsValue : ScanError → Prop
  | .decode .. => True
  | .raised exc => exc.isA .valueError = true

abbrev Reads (r : Scan α) : Prop := RaisesOnly ScanError.IsValue r

theorem valueError_isA : ExnClass.isA .valueError .valueError = true := by decide

theorem jsonDecodeError_isA (message : String) (doc : Str) (pos : Nat) :
    (jsonDecodeError message doc pos).isA .valueError = true :=
  (by decide : ExnClass.isA .jsonDecodeError .valueError = true)

theorem reads_expecting (what : String) (s : Str) : Reads (expecting what s : Scan α) :=
  raisesOnly_error.mpr trivial

theorem reads_decode (message : String) (remaining : Nat) :
    Reads (.error (.decode message remaining) : Scan α) := raisesOnly_error.mpr trivial

theorem scanUnits_reads (opening : Nat) (s : Str) : Reads (scanUnits opening s) := by
  fun_induction scanUnits opening s with
  | case1 => exact reads_decode _ _
  | case2 => exact raisesOnly_ok _
  | case3 => exact reads_decode _ _
  | case4 c s _ _ _ ih => exact ih.bind fun _ => raisesOnly_ok _
  | case5 => exact reads_decode _ _
  | case6 _ _ _ _ _ _ _ _ _ ih => exact ih.bind fun _ => raisesOnly_ok _
  | case7 => exact reads_decode _ _
  | case8 _ _ _ _ _ _ _ _ _ _ _ _ _ ih => exact ih.bind fun _ => raisesOnly_ok _
  | case9 => exact reads_decode _ _
  | case10 => exact reads_decode _ _

theorem scanString_reads (s : Str) : Reads (scanString s) :=
  (scanUnits_reads _ s).bind fun _ => raisesOnly_ok _

theorem scanAtom_reads (s : Str) : Reads (scanAtom s) := by
  unfold scanAtom
  split
  · exact raisesOnly_ok _
  · unfold scanNumber
    split
    · exact reads_expecting _ _
    · split
      · exact raisesOnly_ok _
      · split
        · exact raisesOnly_ok _
        · exact raisesOnly_error.mpr valueError_isA

theorem scanDelimiter_reads (close : CodePoint) (s : Str) : Reads (scanDelimiter close s) := by
  unfold scanDelimiter
  split
  · exact reads_expecting _ _
  · split
    · exact raisesOnly_ok _
    · split
      · exact raisesOnly_ok _
      · exact reads_expecting _ _

theorem scanItems_reads {item : Str → Scan (α × Str)} (h : ∀ s, Reads (item s))
    (close : CodePoint) (fuel : Nat) (s : Str) : Reads (scanItems item close fuel s) := by
  induction fuel generalizing s with
  | zero => exact reads_expecting _ _
  | succ fuel ih =>
    refine (h s).bind fun (x, s) => (scanDelimiter_reads close s).bind fun (closed, s) => ?_
    cases closed with
    | true => exact raisesOnly_ok _
    | false => exact (ih s).bind fun _ => raisesOnly_ok _

section
variable {scan : Str → Scan (PyValue × Str)} (h : ∀ s, Reads (scan s))
include h

theorem scanArray_reads (s : Str) : Reads (scanArray scan s) := by
  unfold scanArray
  split
  · exact reads_expecting _ _
  · split
    · exact raisesOnly_ok _
    · exact (scanItems_reads h _ _ _).bind fun _ => raisesOnly_ok _

omit h in
theorem scanKey_reads (s : Str) : Reads (scanKey s) := by
  unfold scanKey
  split
  · exact reads_expecting _ _
  · split
    · refine (scanString_reads _).bind fun (key, s) => ?_
      simp only
      split
      · exact reads_expecting _ _
      · split
        · exact raisesOnly_ok _
        · exact reads_expecting _ _
    · exact reads_expecting _ _

theorem scanMember_reads (s : Str) : Reads (scanMember scan s) :=
  (scanKey_reads s).bind fun (_, s) => (h s).bind fun _ => raisesOnly_ok _

theorem scanObject_reads (s : Str) : Reads (scanObject scan s) := by
  unfold scanObject
  split
  · exact reads_expecting _ _
  · split
    · exact raisesOnly_ok _
    · exact (scanItems_reads (scanMember_reads h) _ _ _).bind fun _ => raisesOnly_ok _

end

theorem scanOnce_reads (depth : Nat) (s : Str) : Reads (scanOnce depth s) := by
  induction depth generalizing s with
  | zero => exact reads_expecting _ _
  | succ depth ih =>
    cases s with
    | nil => exact reads_expecting _ _
    | cons c rest =>
      unfold scanOnce
      split
      · exact (scanString_reads rest).bind fun _ => raisesOnly_ok _
      · split
        · exact scanObject_reads ih rest
        · split
          · exact scanArray_reads ih rest
          · exact scanAtom_reads _

theorem decode_reads (s : Str) : Reads (decode s) := by
  refine (scanOnce_reads _ _).bind fun (v, rest) => ?_
  simp only
  split
  · exact raisesOnly_ok _
  · exact reads_decode _ _

theorem loads_raises {s : Str} {exc : Exn} (h : loads s = .error exc) :
    exc.isA .valueError = true := by
  have hreads := decode_reads s
  unfold loads at h
  split at h
  · cases h
    exact jsonDecodeError_isA _ _ _
  · cases hd : decode s with
    | ok v => rw [hd] at h; cases h
    | error e =>
      rw [hd] at h hreads
      cases e with
      | decode message remaining =>
        cases h
        exact jsonDecodeError_isA _ _ _
      | raised exc' =>
        cases h
        exact hreads _ rfl

end Python
