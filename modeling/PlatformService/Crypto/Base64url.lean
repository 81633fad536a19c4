import PlatformService.Lib.Bytes

/-!
# base64url

`base64url.c`: the unpadded encoding, three bytes to four characters, and the
strict decoder. The decoder rejects foreign characters, a length of one modulo
four, and nonzero trailing bits, so that it accepts exactly the encoder's texts:
`decode_eq_some_iff`.
-/

namespace PlatformService.Base64url

/-- `ENCODE_TABLE` -/
def encodeTable : Bytes :=
  ascii "ABCDEFGHIJKLMNOPQRSTUVWXYZabcdefghijklmnopqrstuvwxyz0123456789-_"

/-- `ENCODE_TABLE[index & 0x3F]` -/
def encodeChar (index : Nat) : UInt8 := encodeTable.getD (index % 64) 0

/-- `decode_char` -/
def decodeChar (char : UInt8) : Option Nat :=
  if 65 ≤ char ∧ char ≤ 90 then some (char.toNat - 65)
  else if 97 ≤ char ∧ char ≤ 122 then some (char.toNat - 97 + 26)
  else if 48 ≤ char ∧ char ≤ 57 then some (char.toNat - 48 + 52)
  else if char = 45 then some 62
  else if char = 95 then some 63
  else none

/-- `ps_base64url_encode` -/
def encode : Bytes → Bytes
  | a :: b :: c :: rest =>
    let n := a.toNat * 65536 + b.toNat * 256 + c.toNat
    [encodeChar (n / 262144), encodeChar (n / 4096), encodeChar (n / 64), encodeChar n] ++ encode rest
  | [a, b] =>
    let n := a.toNat * 65536 + b.toNat * 256
    [encodeChar (n / 262144), encodeChar (n / 4096), encodeChar (n / 64)]
  | [a] =>
    let n := a.toNat * 65536
    [encodeChar (n / 262144), encodeChar (n / 4096)]
  | [] => []

/-- The loop of `ps_base64url_decode` and its remainder. -/
def decodeChunks : Bytes → Option Bytes
  | a :: b :: c :: d :: rest => do
    let c0 ← decodeChar a
    let c1 ← decodeChar b
    let c2 ← decodeChar c
    let c3 ← decodeChar d
    let n := c0 * 262144 + c1 * 4096 + c2 * 64 + c3
    some ([(n / 65536).toUInt8, (n / 256).toUInt8, n.toUInt8] ++ (← decodeChunks rest))
  | [a, b, c] => do
    let c0 ← decodeChar a
    let c1 ← decodeChar b
    let c2 ← decodeChar c
    if c2 % 4 ≠ 0 then none
    else
      let n := c0 * 262144 + c1 * 4096 + c2 * 64
      some [(n / 65536).toUInt8, (n / 256).toUInt8]
  | [a, b] => do
    let c0 ← decodeChar a
    let c1 ← decodeChar b
    if c1 % 16 ≠ 0 then none else some [(c0 * 4 + c1 / 16).toUInt8]
  | [_] => some []
  | [] => some []

/-- `ps_base64url_decode` -/
def decode (text : Bytes) : Option Bytes := if text.length % 4 = 1 then none else decodeChunks text

/-- The table is read back character by character. -/
theorem decodeChar_encodeChar (index : Nat) : decodeChar (encodeChar index) = some (index % 64) := by
  have table : ∀ i < 64, decodeChar (encodeTable.getD i 0) = some i := by decide +kernel
  exact table _ (Nat.mod_lt _ (by decide))

/-- An accepted character is that of its index. -/
theorem encodeChar_of_decodeChar {char : UInt8} {index : Nat} (decoded : decodeChar char = some index) :
    index < 64 ∧ encodeChar index = char := by
  have table : ∀ n < 256, ∀ i ∈ decodeChar (UInt8.ofNat n), i < 64 ∧ encodeChar i = UInt8.ofNat n := by
    decide +kernel
  have row := table char.toNat char.toNat_lt index
  rw [UInt8.ofNat_toNat] at row
  exact row decoded

/-- Characters decode to an index exactly when they are its character. -/
theorem decodeChar_eq_some_iff {char : UInt8} {index : Nat} :
    decodeChar char = some index ↔ index < 64 ∧ encodeChar index = char := by
  constructor
  · exact encodeChar_of_decodeChar
  · rintro ⟨small, rfl⟩
    rw [decodeChar_encodeChar, Nat.mod_eq_of_lt small]

/-- Indices that agree modulo the table's size have one character. -/
theorem encodeChar_congr {left right : Nat} (same : left % 64 = right % 64) :
    encodeChar left = encodeChar right := by
  unfold encodeChar
  rw [same]

/-- A byte is read back from any number that ends in it. -/
theorem toUInt8_eq {n : Nat} (byte : UInt8) (same : n % 256 = byte.toNat) : n.toUInt8 = byte := by
  apply UInt8.toNat_inj.mp
  rw [← same]
  exact UInt8.toNat_ofNat'

/-- Three bytes are four digits in base 64. -/
theorem digits_base64 {n : Nat} (small : n < 16777216) :
    n / 262144 % 64 * 262144 + n / 4096 % 64 * 4096 + n / 64 % 64 * 64 + n % 64 = n := by
  omega

/-- The decoder's loop on two characters of the table. -/
theorem decodeChunks_pair (i j : Nat) :
    decodeChunks [encodeChar i, encodeChar j] =
      if j % 64 % 16 ≠ 0 then none else some [(i % 64 * 4 + j % 64 / 16).toUInt8] := by
  simp only [decodeChunks, decodeChar_encodeChar, Option.bind_eq_bind, Option.bind_some]

/-- The decoder's loop on three characters of the table. -/
theorem decodeChunks_triple (i j k : Nat) :
    decodeChunks [encodeChar i, encodeChar j, encodeChar k] =
      let n := i % 64 * 262144 + j % 64 * 4096 + k % 64 * 64
      if k % 64 % 4 ≠ 0 then none else some [(n / 65536).toUInt8, (n / 256).toUInt8] := by
  simp only [decodeChunks, decodeChar_encodeChar, Option.bind_eq_bind, Option.bind_some]

/-- The decoder's loop inverts the encoder. -/
theorem decodeChunks_encode (bytes : Bytes) : decodeChunks (encode bytes) = some bytes := by
  induction bytes using encode.induct with
  | case1 a b c rest ih =>
    have ha := a.toNat_lt
    have hb := b.toNat_lt
    have hc := c.toNat_lt
    have small : a.toNat * 65536 + b.toNat * 256 + c.toNat < 16777216 := by omega
    simp only [encode, List.cons_append, List.nil_append, decodeChunks, decodeChar_encodeChar,
      Option.bind_eq_bind, Option.bind_some, ih, digits_base64 small]
    rw [toUInt8_eq a (by omega), toUInt8_eq b (by omega), toUInt8_eq c (by omega)]
  | case2 a b =>
    have ha := a.toNat_lt
    have hb := b.toNat_lt
    rw [encode, decodeChunks_triple]
    dsimp only
    rw [if_neg (by omega), toUInt8_eq a (by omega), toUInt8_eq b (by omega)]
  | case3 a =>
    have ha := a.toNat_lt
    rw [encode, decodeChunks_pair, if_neg (by omega), toUInt8_eq a (by omega)]
  | case4 => rfl

/-- The encoder never produces a length of one modulo four. -/
theorem length_encode_mod (bytes : Bytes) : (encode bytes).length % 4 ≠ 1 := by
  induction bytes using encode.induct with
  | case1 a b c rest ih =>
    simp only [encode, List.length_append, List.length_cons, List.length_nil]
    omega
  | case2 a b => simp [encode]
  | case3 a => simp [encode]
  | case4 => simp [encode]

/-- The decoder inverts the encoder. -/
theorem decode_encode (bytes : Bytes) : decode (encode bytes) = some bytes := by
  unfold decode
  rw [if_neg (length_encode_mod bytes), decodeChunks_encode]

/-- Only the empty string is encoded as the empty text. -/
theorem encode_ne_nil {bytes : Bytes} (nonempty : bytes ≠ []) : encode bytes ≠ [] := by
  intro empty
  have decoded := decode_encode bytes
  rw [empty] at decoded
  exact nonempty (Option.some.inj decoded).symm

/-- A number is cut to its last byte. -/
theorem toNat_toUInt8 {n : Nat} : n.toUInt8.toNat = n % 256 := UInt8.toNat_ofNat'

/-- The encoder inverts the decoder's loop. -/
theorem encode_of_decodeChunks {text bytes : Bytes} (proper : text.length % 4 ≠ 1)
    (decoded : decodeChunks text = some bytes) : encode bytes = text := by
  induction text using decodeChunks.induct generalizing bytes with
  | case1 a b c d rest ih =>
    simp only [decodeChunks, Option.bind_eq_bind, Option.bind_eq_some_iff, Option.some.injEq,
      decodeChar_eq_some_iff] at decoded
    obtain ⟨c0, ⟨h0, rfl⟩, c1, ⟨h1, rfl⟩, c2, ⟨h2, rfl⟩, c3, ⟨h3, rfl⟩, tail, later, rfl⟩ := decoded
    have proper' : rest.length % 4 ≠ 1 := by
      simp only [List.length_cons] at proper
      omega
    simp only [List.cons_append, List.nil_append, encode, toNat_toUInt8, ih proper' later,
      List.cons.injEq]
    exact ⟨encodeChar_congr (by omega), encodeChar_congr (by omega), encodeChar_congr (by omega),
      encodeChar_congr (by omega), trivial⟩
  | case2 a b c =>
    simp only [decodeChunks, Option.bind_eq_bind, Option.bind_eq_some_iff,
      decodeChar_eq_some_iff] at decoded
    obtain ⟨c0, ⟨h0, rfl⟩, c1, ⟨h1, rfl⟩, c2, ⟨h2, rfl⟩, decoded⟩ := decoded
    split at decoded
    · contradiction
    · cases decoded
      simp only [encode, toNat_toUInt8, List.cons.injEq]
      exact ⟨encodeChar_congr (by omega), encodeChar_congr (by omega), encodeChar_congr (by omega),
        trivial⟩
  | case3 a b =>
    simp only [decodeChunks, Option.bind_eq_bind, Option.bind_eq_some_iff,
      decodeChar_eq_some_iff] at decoded
    obtain ⟨c0, ⟨h0, rfl⟩, c1, ⟨h1, rfl⟩, decoded⟩ := decoded
    split at decoded
    · contradiction
    · cases decoded
      simp only [encode, toNat_toUInt8, List.cons.injEq]
      exact ⟨encodeChar_congr (by omega), encodeChar_congr (by omega), trivial⟩
  | case4 a => simp at proper
  | case5 =>
    cases decoded
    rfl

/-- The decoder accepts exactly the encoder's texts, each as what it encodes. -/
theorem decode_eq_some_iff {text bytes : Bytes} : decode text = some bytes ↔ text = encode bytes := by
  constructor
  · intro decoded
    unfold decode at decoded
    split at decoded
    · contradiction
    · rename_i proper
      exact (encode_of_decodeChunks proper decoded).symm
  · rintro rfl
    exact decode_encode bytes

/-- Encoded text is made of the table's characters. -/
theorem mem_encode {bytes : Bytes} {char : UInt8} (stored : char ∈ encode bytes) :
    ∃ index, char = encodeChar index := by
  induction bytes using encode.induct with
  | case1 a b c rest ih =>
    simp only [encode, List.mem_append, List.mem_cons, List.not_mem_nil, or_false] at stored
    rcases stored with (rfl | rfl | rfl | rfl) | later
    · exact ⟨_, rfl⟩
    · exact ⟨_, rfl⟩
    · exact ⟨_, rfl⟩
    · exact ⟨_, rfl⟩
    · exact ih later
  | case2 a b =>
    simp only [encode, List.mem_cons, List.not_mem_nil, or_false] at stored
    rcases stored with rfl | rfl | rfl
    · exact ⟨_, rfl⟩
    · exact ⟨_, rfl⟩
    · exact ⟨_, rfl⟩
  | case3 a =>
    simp only [encode, List.mem_cons, List.not_mem_nil, or_false] at stored
    rcases stored with rfl | rfl
    · exact ⟨_, rfl⟩
    · exact ⟨_, rfl⟩
  | case4 => simp [encode] at stored

/-- The bits behind the last whole byte of a text, which a canonical text has zero. -/
def trailingBits : Bytes → Nat
  | _ :: _ :: _ :: _ :: rest => trailingBits rest
  | [_, _, c] => (decodeChar c).getD 0 % 4
  | [_, b] => (decodeChar b).getD 0 % 16
  | _ => 0

/-- A character decodes exactly when it stands in the table. -/
theorem decodeChar_eq_none_iff {char : UInt8} : decodeChar char = none ↔ char ∉ encodeTable := by
  have table : ∀ n < 256, decodeChar (UInt8.ofNat n) = none ↔ UInt8.ofNat n ∉ encodeTable := by
    decide +kernel
  have row := table char.toNat char.toNat_lt
  rwa [UInt8.ofNat_toNat] at row

/-- A character of the table decodes. -/
theorem decodeChar_of_mem {char : UInt8} (known : char ∈ encodeTable) :
    ∃ index, decodeChar char = some index := by
  cases decoded : decodeChar char with
  | none => exact absurd known (decodeChar_eq_none_iff.mp decoded)
  | some index => exact ⟨index, rfl⟩

/-- An accepted character stands in the table. -/
theorem mem_of_decodeChar {char : UInt8} {index : Nat} (decoded : decodeChar char = some index) :
    char ∈ encodeTable := by
  by_contra foreign
  rw [decodeChar_eq_none_iff.mpr foreign] at decoded
  contradiction

/-- The decoder's loop succeeds on the texts over the table that end in zero bits. -/
theorem decodeChunks_ne_none_iff {text : Bytes} (proper : text.length % 4 ≠ 1) :
    decodeChunks text ≠ none ↔ (∀ char ∈ text, char ∈ encodeTable) ∧ trailingBits text = 0 := by
  induction text using decodeChunks.induct with
  | case1 a b c d rest ih =>
    have proper' : rest.length % 4 ≠ 1 := by
      simp only [List.length_cons] at proper
      omega
    have later := ih proper'
    constructor
    · intro accepted
      obtain ⟨bytes, decoded⟩ := Option.ne_none_iff_exists'.mp accepted
      simp only [decodeChunks, Option.bind_eq_bind, Option.bind_eq_some_iff] at decoded
      obtain ⟨c0, first, c1, second, c2, third, c3, fourth, tail, remains, -⟩ := decoded
      have known := later.mp (by rw [remains]; exact Option.some_ne_none tail)
      refine ⟨?_, known.2⟩
      simp only [List.forall_mem_cons]
      exact ⟨mem_of_decodeChar first, mem_of_decodeChar second, mem_of_decodeChar third,
        mem_of_decodeChar fourth, known.1⟩
    · rintro ⟨known, zero⟩
      simp only [List.forall_mem_cons] at known
      obtain ⟨c0, first⟩ := decodeChar_of_mem known.1
      obtain ⟨c1, second⟩ := decodeChar_of_mem known.2.1
      obtain ⟨c2, third⟩ := decodeChar_of_mem known.2.2.1
      obtain ⟨c3, fourth⟩ := decodeChar_of_mem known.2.2.2.1
      have accepted := later.mpr ⟨known.2.2.2.2, zero⟩
      obtain ⟨tail, remains⟩ := Option.ne_none_iff_exists'.mp accepted
      simp [decodeChunks, first, second, third, fourth, remains]
  | case2 a b c =>
    cases first : decodeChar a with
    | none => simp [decodeChunks, first, decodeChar_eq_none_iff.mp first]
    | some c0 =>
      cases second : decodeChar b with
      | none => simp [decodeChunks, first, second, decodeChar_eq_none_iff.mp second]
      | some c1 =>
        cases third : decodeChar c with
        | none => simp [decodeChunks, first, second, third, decodeChar_eq_none_iff.mp third]
        | some c2 =>
          simp [decodeChunks, trailingBits, first, second, third, mem_of_decodeChar first,
            mem_of_decodeChar second, mem_of_decodeChar third]
  | case3 a b =>
    cases first : decodeChar a with
    | none => simp [decodeChunks, first, decodeChar_eq_none_iff.mp first]
    | some c0 =>
      cases second : decodeChar b with
      | none => simp [decodeChunks, first, second, decodeChar_eq_none_iff.mp second]
      | some c1 =>
        simp [decodeChunks, trailingBits, first, second, mem_of_decodeChar first,
          mem_of_decodeChar second]
  | case4 a => simp at proper
  | case5 => simp [decodeChunks, trailingBits]

/-- The encoding is a bijection onto the texts that the decoder accepts, and these are the texts over
the table of a length other than one modulo four whose trailing bits are zero. -/
theorem bijection_onto_accepted :
    (∀ bytes, decode (encode bytes) = some bytes) ∧
    (∀ text bytes, decode text = some bytes → encode bytes = text) ∧
    (∀ text other bytes, decode text = some bytes → decode other = some bytes → text = other) ∧
    (∀ text, decode text ≠ none ↔
      text.length % 4 ≠ 1 ∧ (∀ char ∈ text, char ∈ encodeTable) ∧ trailingBits text = 0) ∧
    (61 : UInt8) ∉ encodeTable ∧ (43 : UInt8) ∉ encodeTable ∧ (47 : UInt8) ∉ encodeTable := by
  refine ⟨decode_encode, ?_, ?_, ?_, by decide, by decide, by decide⟩
  · intro text bytes decoded
    exact (decode_eq_some_iff.mp decoded).symm
  · intro text other bytes decoded again
    rw [decode_eq_some_iff.mp decoded, decode_eq_some_iff.mp again]
  · intro text
    unfold decode
    by_cases proper : text.length % 4 = 1
    · simp [proper]
    · rw [if_neg proper, decodeChunks_ne_none_iff proper]
      simp [proper]

/-- Both tails, an accepted text and a text with a trailing bit. -/
theorem bijection_two_tails :
    decode (encode [255, 1]) = some [255, 1] ∧ decode (encode [7]) = some [7] ∧
      encode [255, 1] = ascii "_wE" ∧ decode (ascii "_wF") = none := by
  have result := bijection_onto_accepted
  refine ⟨result.1 _, result.1 _, result.2.1 _ _ (by decide +kernel), ?_⟩
  by_contra accepted
  have canonical := ((result.2.2.2.1 (ascii "_wF")).mp accepted).2.2
  revert canonical
  decide +kernel

end PlatformService.Base64url
