import MellivorKernel.Foundation.Returns
import MellivorKernel.Python.Exception

/-!
# Reading text

What `Path.read_text(encoding="utf-8")` makes of the bytes of a file: strict
decoding, then one kind of line end.
-/

namespace Python

open Foundation

/-- The `UnicodeDecodeError` for `width` bytes from `position` on, the first of
which is given. -/
def utf8Error (first : UInt8) (position width : Nat) (reason : String) : Exn :=
  .raised .unicodeDecodeError (
    (if width = 1 then
      lit "'utf-8' codec can't decode byte 0x" ++ hex 2 first.toNat ++ lit " in position " ++
        decimal position
    else
      lit "'utf-8' codec can't decode bytes in position " ++ decimal position ++ lit "-" ++
        decimal (position + width - 1)) ++ lit ": " ++ lit reason)

def continuation (b : UInt8) : Bool := 0x80 ≤ b && b < 0xC0

/-- Whether `b` may be the second byte after `a`: no overlong forms, no
surrogates and nothing beyond the last code point. -/
def mayFollow (a b : UInt8) : Bool :=
  continuation b && (a ≠ 0xE0 || 0xA0 ≤ b) && (a ≠ 0xED || b < 0xA0) && (a ≠ 0xF0 || 0x90 ≤ b) &&
    (a ≠ 0xF4 || b < 0x90)

/-- The code point of a leading byte, without its `mark`, and what follows it. -/
def joinBytes (mark : Nat) (first : UInt8) (rest : List UInt8) : CodePoint :=
  Fin.ofNat 0x110000 (rest.foldl (fun n b => n * 64 + (b.toNat - 0x80)) (first.toNat - mark))

/-- `bytes.decode("utf-8")` of what starts at a position. -/
def utf8Decode (position : Nat) : List UInt8 → Except Exn Str
  | [] => .ok []
  | a :: s =>
    if a < 0x80 then do
      let text ← utf8Decode (position + 1) s
      .ok (joinBytes 0 a [] :: text)
    else if a < 0xC2 || 0xF5 ≤ a then .error (utf8Error a position 1 "invalid start byte")
    else
      match s with
      | [] => .error (utf8Error a position 1 "unexpected end of data")
      | b :: s =>
        if !mayFollow a b then .error (utf8Error a position 1 "invalid continuation byte")
        else if a < 0xE0 then do
          let text ← utf8Decode (position + 2) s
          .ok (joinBytes 0xC0 a [b] :: text)
        else
          match s with
          | [] => .error (utf8Error a position 2 "unexpected end of data")
          | c :: s =>
            if !continuation c then .error (utf8Error a position 2 "invalid continuation byte")
            else if a < 0xF0 then do
              let text ← utf8Decode (position + 3) s
              .ok (joinBytes 0xE0 a [b, c] :: text)
            else
              match s with
              | [] => .error (utf8Error a position 3 "unexpected end of data")
              | d :: s =>
                if !continuation d then .error (utf8Error a position 3 "invalid continuation byte")
                else do
                  let text ← utf8Decode (position + 4) s
                  .ok (joinBytes 0xF0 a [b, c, d] :: text)

def translateNewlines : Str → Str
  | [] => []
  | c :: rest =>
    if c = cp '\r' then
      match rest with
      | [] => [cp '\n']
      | d :: more =>
        if d = cp '\n' then cp '\n' :: translateNewlines more
        else cp '\n' :: translateNewlines (d :: more)
    else c :: translateNewlines rest

def readText (content : List UInt8) : Except Exn Str :=
  (utf8Decode 0 content).map translateNewlines

def NotDecoded (exc : Exn) : Prop := ∃ message, exc = .raised .unicodeDecodeError message

theorem utf8Decode_raises (position : Nat) (content : List UInt8) :
    RaisesOnly NotDecoded (utf8Decode position content) := by
  have herror {first : UInt8} {position width : Nat} {reason : String} :
      RaisesOnly NotDecoded (.error (utf8Error first position width reason) : Except Exn Str) :=
    raisesOnly_error.mpr ⟨_, rfl⟩
  have hmore {text : Except Exn Str} {c : CodePoint} (h : RaisesOnly NotDecoded text) :
      RaisesOnly NotDecoded (do let text ← text; .ok (c :: text)) := h.bind fun _ => raisesOnly_ok _
  fun_induction utf8Decode position content
  case case1 => exact raisesOnly_ok _
  case case2 ih | case6 ih | case9 ih | case12 ih => exact hmore ih
  all_goals exact herror

theorem readText_raises (content : List UInt8) : RaisesOnly NotDecoded (readText content) := by
  intro exc h
  have hdecode := utf8Decode_raises 0 content
  rw [readText] at h
  cases hd : utf8Decode 0 content with
  | error exc' =>
    rw [hd] at h hdecode
    cases h
    exact hdecode _ rfl
  | ok text =>
    rw [hd] at h
    cases h

example : (readText [0xC3, 0xA9, 0x0D, 0x0A]).toOption = some (lit "é\n") ∧
    (readText [0xFF]).toOption = none := by decide

end Python
