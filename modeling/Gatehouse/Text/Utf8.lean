/-!
Reading bytes as UTF-8. A byte sequence that is cut short or malformed is read as one U+FFFD for its longest
well-formed beginning, and reading goes on at the byte that broke it.
-/

namespace Gatehouse.Text

/-- What a character still needs: its bits so far, and the range of each byte to come. -/
structure Unfinished where
  bits : Nat
  next : List (Nat × Nat)

/-- What the first byte of a character announces: the character itself, a beginning, or nothing. -/
def beginChar (b : Nat) : List Char × Option Unfinished :=
  let tail := (0x80, 0xbf)
  if b < 0x80 then ([Char.ofNat b], none)
  else if 0xc2 ≤ b && b ≤ 0xdf then ([], some ⟨b - 0xc0, [tail]⟩)
  else if b == 0xe0 then ([], some ⟨0, [(0xa0, 0xbf), tail]⟩)
  else if b == 0xed then ([], some ⟨0xd, [(0x80, 0x9f), tail]⟩)
  else if 0xe1 ≤ b && b ≤ 0xef then ([], some ⟨b - 0xe0, [tail, tail]⟩)
  else if b == 0xf0 then ([], some ⟨0, [(0x90, 0xbf), tail, tail]⟩)
  else if 0xf1 ≤ b && b ≤ 0xf3 then ([], some ⟨b - 0xf0, [tail, tail, tail]⟩)
  else if b == 0xf4 then ([], some ⟨4, [(0x80, 0x8f), tail, tail]⟩)
  else (['\uFFFD'], none)

/-- One byte read: the characters it completes and what is unfinished after it. -/
def readByte : Option Unfinished → Nat → List Char × Option Unfinished
  | none, b => beginChar b
  | some ⟨_, []⟩, b => beginChar b
  | some ⟨bits, (low, high) :: more⟩, b =>
      if low ≤ b && b ≤ high then
        let bits := bits * 64 + (b - 0x80)
        if more.isEmpty then ([Char.ofNat bits], none) else ([], some ⟨bits, more⟩)
      else
        let (chars, unfinished) := beginChar b
        ('\uFFFD' :: chars, unfinished)

def readUtf8From : Option Unfinished → List Nat → List Char
  | none, [] => []
  | some _, [] => ['\uFFFD']
  | unfinished, b :: rest =>
      let (chars, unfinished) := readByte unfinished b
      chars ++ readUtf8From unfinished rest

def readUtf8 (bytes : List Nat) : List Char := readUtf8From none bytes

theorem readUtf8_of_ascii (bytes : List Nat) (h : ∀ b ∈ bytes, b < 0x80) :
    readUtf8 bytes = bytes.map Char.ofNat := by
  unfold readUtf8
  induction bytes with
  | nil => rfl
  | cons b rest ih =>
    have hb : b < 0x80 := h b List.mem_cons_self
    have hread : readByte none b = ([Char.ofNat b], none) := by simp [readByte, beginChar, hb]
    rw [readUtf8From, hread]
    · simpa using ih (fun c hc => h c (List.mem_cons_of_mem _ hc))

end Gatehouse.Text
