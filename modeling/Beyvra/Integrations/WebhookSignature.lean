import Beyvra.Foundation.Integers

namespace Beyvra

open Text

namespace PolygonOms

inductive SignatureError where
  | unicodeEncodeError
  deriving DecidableEq

def headerParts (header : List Char) : List (List Char × List Char) :=
  (header.splitOn ',').filterMap fun part =>
    if '=' ∈ part then some (strip (part.takeWhile (· ≠ '=')), strip (part.dropWhile (· ≠ '=')).tail) else none

-- `parts.get(key)`: the last part with the key is the one that stays.
def headerValue (header key : List Char) : Option (List Char) := (headerParts header).reverse.lookup key

def signedBytes (timestamp rawBody : List UInt8) : List UInt8 := timestamp ++ 46 :: rawBody

section Signature

variable (hmac : List UInt8 → List UInt8 → List UInt8) (rawBody : List UInt8) (header : Option String)
  (signingKey : List UInt8) (now toleranceSeconds : Int)

def verifyParts (timestamp signature : List Char) : Except SignatureError Bool :=
  match integerOf timestamp with
  | none => .ok false
  | some timestampNumber =>
    if toleranceSeconds < |now - timestampNumber| then .ok false
    else
      match fromHex signature with
      | none => .ok false
      | some received =>
        -- the encoding stands below the `try`
        match encodeAscii timestamp with
        | none => .error .unicodeEncodeError
        | some encoded => .ok (received = hmac signingKey (signedBytes encoded rawBody))

def verifyWebhookSignature : Except SignatureError Bool :=
  match header with
  | none => .ok false
  | some header =>
    if header = "" ∨ signingKey = [] then .ok false
    else
      match headerValue header.toList ['t'], headerValue header.toList ['v', '1'] with
      | some timestamp, some signature =>
        if timestamp = [] ∨ signature = [] then .ok false
        else verifyParts hmac rawBody signingKey now toleranceSeconds timestamp signature
      | _, _ => .ok false

end Signature

-- The header passes every check that stands above the encoding of its timestamp.
def ReachesEncoding (header : Option String) (signingKey : List UInt8) (now toleranceSeconds : Int)
    (timestamp : List Char) (received : List UInt8) : Prop :=
  ∃ text signature timestampNumber, header = some text ∧ signingKey ≠ [] ∧
    headerValue text.toList ['t'] = some timestamp ∧ headerValue text.toList ['v', '1'] = some signature ∧
      signature ≠ [] ∧ integerOf timestamp = some timestampNumber ∧ |now - timestampNumber| ≤ toleranceSeconds ∧
        fromHex signature = some received

def Authentic (hmac : List UInt8 → List UInt8 → List UInt8) (rawBody : List UInt8) (header : Option String)
    (signingKey : List UInt8) (now toleranceSeconds : Int) : Prop :=
  ∃ text timestamp signature timestampNumber encoded, header = some text ∧
    (['t'], timestamp) ∈ headerParts text.toList ∧ (['v', '1'], signature) ∈ headerParts text.toList ∧
      integerOf timestamp = some timestampNumber ∧ |now - timestampNumber| ≤ toleranceSeconds ∧
        encodeAscii timestamp = some encoded ∧
          (signature.filter fun c => !asciiSpace c).map Char.toLower =
            hexText (hmac signingKey (signedBytes encoded rawBody))

section Signature

variable {hmac : List UInt8 → List UInt8 → List UInt8} {rawBody : List UInt8} {header : Option String}
  {signingKey : List UInt8} {now toleranceSeconds : Int} {text timestamp signature : List Char} {received : List UInt8}

theorem headerValue_mem {key value : List Char} (h : headerValue text key = some value) :
    (key, value) ∈ headerParts text := by
  obtain ⟨before, after, heq, -⟩ := List.lookup_eq_some_iff.mp h
  have hmem : (key, value) ∈ (headerParts text).reverse := by simp [heq]
  exact List.mem_reverse.mp hmem

theorem verify_of_reaches (h : ReachesEncoding header signingKey now toleranceSeconds timestamp received) :
    verifyWebhookSignature hmac rawBody header signingKey now toleranceSeconds =
      match encodeAscii timestamp with
      | none => .error .unicodeEncodeError
      | some encoded => .ok (received = hmac signingKey (signedBytes encoded rawBody)) := by
  obtain ⟨text, signature, timestampNumber, rfl, hkey, htimestamp, hsignature, hne, hnumber, hnow, hreceived⟩ := h
  have htext : text ≠ "" := by
    rintro rfl
    have hnone : headerParts "".toList = [] := by decide
    exact absurd (hnone ▸ headerValue_mem htimestamp) List.not_mem_nil
  have htimestamp' : timestamp ≠ [] := by
    rintro rfl
    exact nomatch integerOf_nil.symm.trans hnumber
  rw [verifyWebhookSignature, if_neg (not_or.mpr ⟨htext, hkey⟩), htimestamp, hsignature]
  dsimp only
  rw [if_neg (not_or.mpr ⟨htimestamp', hne⟩), verifyParts, hnumber]
  dsimp only
  rw [if_neg (not_lt.mpr hnow), hreceived]

theorem verify_of_not_reaches
    (h : ∀ timestamp received, ¬ReachesEncoding header signingKey now toleranceSeconds timestamp received) :
    verifyWebhookSignature hmac rawBody header signingKey now toleranceSeconds = .ok false := by
  unfold verifyWebhookSignature
  split
  · rfl
  · rename_i text
    split_ifs with hempty
    · rfl
    · split
      · rename_i timestamp signature htimestamp hsignature
        split_ifs with hblank
        · rfl
        · unfold verifyParts
          split
          · rfl
          · rename_i timestampNumber hnumber
            split_ifs with hlate
            · rfl
            · split
              · rfl
              · rename_i received hreceived
                rw [not_or] at hempty hblank
                exact absurd ⟨text, signature, timestampNumber, rfl, hempty.2, htimestamp, hsignature, hblank.2,
                  hnumber, not_lt.mp hlate, hreceived⟩ (h timestamp received)
      · rfl

theorem authentic_of_reaches (h : ReachesEncoding header signingKey now toleranceSeconds timestamp received)
    {encoded : List UInt8} (hencoded : encodeAscii timestamp = some encoded)
    (hreceived : received = hmac signingKey (signedBytes encoded rawBody)) :
    Authentic hmac rawBody header signingKey now toleranceSeconds := by
  obtain ⟨text, signature, timestampNumber, hheader, -, htimestamp, hsignature, -, hnumber, hnow, hhex⟩ := h
  refine ⟨text, timestamp, signature, timestampNumber, encoded, hheader, headerValue_mem htimestamp,
    headerValue_mem hsignature, hnumber, hnow, hencoded, ?_⟩
  rw [hexText_of_fromHex hhex, hreceived]

end Signature

theorem authentication_iff (hmac : List UInt8 → List UInt8 → List UInt8) (rawBody : List UInt8)
    (header : Option String) (signingKey : List UInt8) (now toleranceSeconds : Int) :
    (∃ answer, verifyWebhookSignature hmac rawBody header signingKey now toleranceSeconds = .ok answer ∧
        (answer = true → Authentic hmac rawBody header signingKey now toleranceSeconds)) ↔
      ∀ timestamp received, ReachesEncoding header signingKey now toleranceSeconds timestamp received →
        ∀ c ∈ timestamp, c.toNat < 128 := by
  constructor
  · rintro ⟨answer, hanswer, -⟩ timestamp received hreaches
    rw [verify_of_reaches hreaches] at hanswer
    refine encodeAscii_isSome.mp ?_
    cases hencoded : encodeAscii timestamp with
    | none => simp [hencoded] at hanswer
    | some encoded => rfl
  · intro hascii
    by_cases hreaches :
        ∃ timestamp received, ReachesEncoding header signingKey now toleranceSeconds timestamp received
    · obtain ⟨timestamp, received, hreaches⟩ := hreaches
      obtain ⟨encoded, hencoded⟩ :=
        Option.isSome_iff_exists.mp (encodeAscii_isSome.mpr (hascii timestamp received hreaches))
      refine ⟨received = hmac signingKey (signedBytes encoded rawBody), ?_, fun htrue => ?_⟩
      · rw [verify_of_reaches hreaches, hencoded]
      · exact authentic_of_reaches hreaches hencoded (of_decide_eq_true htrue)
    · exact ⟨false, verify_of_not_reaches fun timestamp received h => hreaches ⟨timestamp, received, h⟩, nofun⟩

-- An Arabic five is a digit for `int` and no ASCII character.
theorem arabic_digit_raises : ¬∃ answer,
    verifyWebhookSignature (fun _ _ => [0]) [] (some "t=٥,v1=00") [1] 5 300 = .ok answer ∧
      (answer = true → Authentic (fun _ _ => [0]) [] (some "t=٥,v1=00") [1] 5 300) := by
  rintro ⟨answer, hanswer, -⟩
  have hraises : verifyWebhookSignature (fun _ _ => [0]) [] (some "t=٥,v1=00") [1] 5 300 =
      .error .unicodeEncodeError := by decide +kernel
  exact nomatch hraises.symm.trans hanswer

end PolygonOms

end Beyvra
