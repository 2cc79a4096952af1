import Mathlib.Data.List.DropRight

namespace Text

namespace Base64

-- The alphabet that is safe in URLs
def letter (n : ℕ) : Char :=
  if n < 26 then Char.ofNat (n + 65) else if n < 52 then Char.ofNat (n + 71) else if n < 62 then Char.ofNat (n - 4)
  else if n = 62 then '-' else '_'

-- A reader takes the plain alphabet too.
def sextet (c : Char) : Option ℕ :=
  if 65 ≤ c.toNat ∧ c.toNat ≤ 90 then some (c.toNat - 65)
  else if 97 ≤ c.toNat ∧ c.toNat ≤ 122 then some (c.toNat - 71)
  else if 48 ≤ c.toNat ∧ c.toNat ≤ 57 then some (c.toNat + 4)
  else if c ∈ ['-', '+'] then some 62
  else if c ∈ ['_', '/'] then some 63
  else none

def encode : List UInt8 → List Char
  | [] => []
  | [a] => [letter (a.toNat / 4), letter (a.toNat % 4 * 16), '=', '=']
  | [a, b] => [letter (a.toNat / 4), letter (a.toNat % 4 * 16 + b.toNat / 16), letter (b.toNat % 16 * 4), '=']
  | a :: b :: c :: rest =>
    letter (a.toNat / 4) :: letter (a.toNat % 4 * 16 + b.toNat / 16) :: letter (b.toNat % 16 * 4 + c.toNat / 64) ::
      letter (c.toNat % 64) :: encode rest

structure Reader where
  position : ℕ := 0
  left : ℕ := 0
  pads : ℕ := 0
  bytes : List UInt8 := []

def Reader.take (r : Reader) (v : ℕ) : Reader :=
  match r.position with
  | 0 => ⟨1, v, 0, r.bytes⟩
  | 1 => ⟨2, v % 16, 0, r.bytes ++ [UInt8.ofNat (r.left * 4 + v / 16)]⟩
  | 2 => ⟨3, v % 4, 0, r.bytes ++ [UInt8.ofNat (r.left * 16 + v / 4)]⟩
  | _ => ⟨0, 0, 0, r.bytes ++ [UInt8.ofNat (r.left * 64 + v)]⟩

-- The reading stops at a complete padding; other characters outside the alphabet are passed over.
def Reader.read (r : Reader) : List Char → Option (List UInt8)
  | [] => if r.position = 0 then some r.bytes else none
  | c :: rest =>
    if c = '=' then
      if 2 ≤ r.position then
        if 4 ≤ r.position + (r.pads + 1) then some r.bytes else Reader.read { r with pads := r.pads + 1 } rest
      else Reader.read r rest
    else
      match sextet c with
      | none => Reader.read r rest
      | some v => Reader.read (r.take v) rest

def decode (text : List Char) : Option (List UInt8) :=
  if text.all fun c => c.toNat < 128 then Reader.read {} text else none

def strip (text : List Char) : List Char := text.rdropWhile fun c => c = '='

def pad (text : List Char) : List Char := text ++ List.replicate ((-(text.length : ℤ)) % 4).toNat '='

variable {n : ℕ} {r : Reader} {rest : List Char} {bytes : List UInt8}

theorem letter_facts (h : n < 64) : sextet (letter n) = some n ∧ letter n ≠ '=' ∧ (letter n).toNat < 128 := by
  have hall : ∀ n ∈ List.range 64, sextet (letter n) = some n ∧ letter n ≠ '=' ∧ (letter n).toNat < 128 := by decide +kernel
  exact hall n (List.mem_range.mpr h)

theorem read_letter (h : n < 64) : r.read (letter n :: rest) = (r.take n).read rest := by
  obtain ⟨hsextet, hne, -⟩ := letter_facts h
  rw [Reader.read, if_neg hne, hsextet]

theorem ofNat_toNat_eq {a : UInt8} {m : ℕ} (h : m = a.toNat) : UInt8.ofNat m = a := by
  rw [h, UInt8.ofNat_toNat]

theorem read_pads {left : ℕ} : Reader.read ⟨2, left, 0, bytes⟩ ['=', '='] = some bytes := rfl

-- The reader takes a group of four letters as the three bytes that they came from.
theorem read_encode (b : List UInt8) : ∀ bytes, Reader.read ⟨0, 0, 0, bytes⟩ (encode b) = some (bytes ++ b) := by
  induction b using encode.induct with
  | case1 => exact fun bytes => congrArg some (List.append_nil bytes).symm
  | case2 a =>
    intro bytes
    have ha := a.toNat_lt
    have hfirst : a.toNat / 4 * 4 + a.toNat % 4 * 16 / 16 = a.toNat := by omega
    rw [encode, read_letter (by omega), read_letter (by omega)]
    simp only [Reader.take, ofNat_toNat_eq hfirst, read_pads]
  | case3 a b =>
    intro bytes
    have ha := a.toNat_lt
    have hb := b.toNat_lt
    have hfirst : a.toNat / 4 * 4 + (a.toNat % 4 * 16 + b.toNat / 16) / 16 = a.toNat := by omega
    have hsecond : (a.toNat % 4 * 16 + b.toNat / 16) % 16 * 16 + b.toNat % 16 * 4 / 4 = b.toNat := by omega
    rw [encode, read_letter (by omega), read_letter (by omega), read_letter (by omega)]
    simp only [Reader.take, ofNat_toNat_eq hfirst, ofNat_toNat_eq hsecond, List.append_assoc, List.cons_append, List.nil_append]
    rfl
  | case4 a b c rest ih =>
    intro bytes
    have ha := a.toNat_lt
    have hb := b.toNat_lt
    have hc := c.toNat_lt
    have hfirst : a.toNat / 4 * 4 + (a.toNat % 4 * 16 + b.toNat / 16) / 16 = a.toNat := by omega
    have hsecond : (a.toNat % 4 * 16 + b.toNat / 16) % 16 * 16 + (b.toNat % 16 * 4 + c.toNat / 64) / 4 = b.toNat := by omega
    have hthird : (b.toNat % 16 * 4 + c.toNat / 64) % 4 * 64 + c.toNat % 64 = c.toNat := by omega
    rw [encode, read_letter (by omega), read_letter (by omega), read_letter (by omega), read_letter (by omega)]
    simp only [Reader.take, ofNat_toNat_eq hfirst, ofNat_toNat_eq hsecond, ofNat_toNat_eq hthird, ih, List.append_assoc,
      List.cons_append, List.nil_append]

def Safe (c : Char) : Prop := ∃ n < 64, c = letter n

-- The padding is what is missing to a whole number of groups.
theorem encode_shape (b : List UInt8) : ∃ body k, encode b = body ++ List.replicate k '=' ∧ (∀ c ∈ body, Safe c) ∧
    (body.length + k) % 4 = 0 ∧ k < 4 := by
  induction b using encode.induct with
  | case1 => exact ⟨[], 0, rfl, by simp, rfl, by decide⟩
  | case2 a =>
    have ha := a.toNat_lt
    refine ⟨[_, _], 2, rfl, ?_, by simp, by decide⟩
    simp only [List.forall_mem_cons, List.not_mem_nil, false_implies, implies_true, and_true]
    exact ⟨⟨_, by omega, rfl⟩, ⟨_, by omega, rfl⟩⟩
  | case3 a b =>
    have ha := a.toNat_lt
    have hb := b.toNat_lt
    refine ⟨[_, _, _], 1, rfl, ?_, by simp, by decide⟩
    simp only [List.forall_mem_cons, List.not_mem_nil, false_implies, implies_true, and_true]
    exact ⟨⟨_, by omega, rfl⟩, ⟨_, by omega, rfl⟩, ⟨_, by omega, rfl⟩⟩
  | case4 a b c rest ih =>
    have ha := a.toNat_lt
    have hb := b.toNat_lt
    have hc := c.toNat_lt
    obtain ⟨body, k, hencode, hbody, hlength, hk⟩ := ih
    refine ⟨_ :: _ :: _ :: _ :: body, k, by rw [encode, hencode]; rfl, ?_, ?_, hk⟩
    · simp only [List.forall_mem_cons]
      exact ⟨⟨_, by omega, rfl⟩, ⟨_, by omega, rfl⟩, ⟨_, by omega, rfl⟩, ⟨_, by omega, rfl⟩, hbody⟩
    · simp only [List.length_cons]
      omega

theorem strip_append_pads {body : List Char} (h : ∀ c ∈ body, Safe c) (k : ℕ) :
    strip (body ++ List.replicate k '=') = body := by
  induction k with
  | zero =>
    rw [List.replicate_zero, List.append_nil]
    refine List.rdropWhile_eq_self_iff.mpr fun hne hlast => ?_
    obtain ⟨n, hn, hletter⟩ := h _ (List.getLast_mem hne)
    rw [hletter] at hlast
    exact (letter_facts hn).2.1 (of_decide_eq_true hlast)
  | succ k ih =>
    rw [List.replicate_succ', ← List.append_assoc]
    have hlast : (decide ('=' = '=')) = true := rfl
    exact (List.rdropWhile_concat_pos (fun c => decide (c = '=')) _ '=' hlast).trans ih

theorem pad_strip_encode (b : List UInt8) : pad (strip (encode b)) = encode b := by
  obtain ⟨body, k, hencode, hbody, hlength, hk⟩ := encode_shape b
  have hcount : ((-(body.length : ℤ)) % 4).toNat = k := by omega
  rw [hencode, strip_append_pads hbody, pad, hcount]

theorem safe_strip_encode (b : List UInt8) : ∀ c ∈ strip (encode b), Safe c := by
  obtain ⟨body, k, hencode, hbody, -⟩ := encode_shape b
  rw [hencode, strip_append_pads hbody]
  exact hbody

theorem decode_encode (b : List UInt8) : decode (encode b) = some b := by
  obtain ⟨body, k, hencode, hbody, -⟩ := encode_shape b
  have hascii : (encode b).all (fun c => c.toNat < 128) = true := by
    refine List.all_eq_true.mpr fun c hc => decide_eq_true ?_
    rw [hencode] at hc
    rcases List.mem_append.mp hc with hbodyc | hpad
    · obtain ⟨n, hn, rfl⟩ := hbody c hbodyc
      exact (letter_facts hn).2.2
    · rw [List.eq_of_mem_replicate hpad]
      decide
  rw [decode, if_pos hascii]
  exact read_encode b []

end Base64

end Text
