import Helios.Fallible
import Helios.KeyText

/-! The plugin's own Base58 decoder and the set of vaults read with it. The buffer is little
endian and the carry runs through it from the far end, so it is right only while at most
one byte is filled. -/

namespace Helios.GeyserPlugin

open Machine

def alphabet : List UInt8 := Pubkey.base58Alphabet.map (fun char => UInt8.ofNat char.toNat)

/-- `1` of the alphabet. -/
def one : UInt8 := 49

/-- `as_bytes`. -/
def asBytes (text : String) : List UInt8 := text.toList.flatMap String.utf8EncodeChar

/-- The pass over `result[..len].iter_mut().rev()`, with the carry that is left. -/
def multiplyAdd (filled : List UInt8) (carry : Nat) : List UInt8 × Nat :=
  filled.foldr (fun byte (done, carry) =>
    (UInt8.ofNat ((carry + 58 * byte.toNat) % 256) :: done, (carry + 58 * byte.toNat) / 256))
    ([], carry)

/-- The carry's bytes behind the filled ones, of which there are at most 64. A `u32` has four. -/
def pushCarry : Nat → List UInt8 → Nat → Except Unit (List UInt8)
  | 0, filled, _ => .ok filled
  | bytes + 1, filled, carry =>
      if carry = 0 then .ok filled
      else if 64 < filled.length + 1 then .error ()
      else pushCarry bytes (filled ++ [UInt8.ofNat (carry % 256)]) (carry / 256)

def readDigit (filled : List UInt8) (c : UInt8) : Except Unit (List UInt8) :=
  match alphabet.findIdx? (fun a => decide (a = c)) with
  | none => .error ()
  | some idx => pushCarry 4 (multiplyAdd filled idx).1 (multiplyAdd filled idx).2

def bs58Decode (input : String) : Except Unit (List UInt8) := do
  let filled ← (asBytes input).foldlM readDigit []
  let leadingZeros := ((asBytes input).takeWhile (fun b => decide (b = one))).length
  return List.replicate leadingZeros 0 ++ filled.reverse

/-! The vaults file. -/

inductive Json where
  | string (text : String)
  | array (items : List Json)
  | object (fields : List (String × Json))
  | other

namespace Json

def asStr : Json → Option String
  | string text => some text
  | _ => none

def asArray : Json → Option (List Json)
  | array items => some items
  | _ => none

/-- The value of a field, the last one of its name. -/
def index (value : Json) (name : String) : Json :=
  match value with
  | object fields => ((fields.reverse.find? (fun field => field.1 == name)).map Prod.snd).getD other
  | _ => other

end Json

/-- One entry of the file, whose key is kept if it decodes to 32 bytes. -/
def insertVault (vaults : Finset (List UInt8)) (v : Json) : Finset (List UInt8) :=
  match (v.index "pubkey").asStr with
  | none => vaults
  | some text =>
      match bs58Decode text with
      | .error _ => vaults
      | .ok bytes => if bytes.length = 32 then insert bytes vaults else vaults

/-- The vault part of `on_load`, over what the file parses to. -/
def loadVaults (vaults : Finset (List UInt8)) (file : Option Json) : Finset (List UInt8) :=
  ((file.bind Json.asArray).getD []).foldl insertVault vaults

/-! Base58 of any bytes: a `1` for each leading zero, and the digits of the number. -/

def number (bytes : List UInt8) : Nat := ofLeBytes bytes.reverse

def leadingZeros (bytes : List UInt8) : Nat := (bytes.takeWhile (fun byte => byte = 0)).length

def bs58Encode (bytes : List UInt8) : String :=
  String.ofList (List.replicate (leadingZeros bytes) '1' ++
    (Nat.digits 58 (number bytes)).reverse.map (fun digit => Pubkey.base58Alphabet.getD digit '1'))

theorem bs58Encode_toBytes (key : Pubkey) : bs58Encode key.toBytes = key.display := by
  have same : number key.toBytes = key.toNat := by
    rw [number, Pubkey.toBytes, List.reverse_reverse]
    exact ofLeBytes_leBytes 32 key.toNat (lt_of_lt_of_eq key.isLt (by norm_num))
  rw [bs58Encode, same, leadingZeros, Pubkey.display]

/-! Characters outside the alphabet. -/

theorem alphabet_ascii (char : Char) (member : char ∈ Pubkey.base58Alphabet) :
    char.toNat < 128 := by
  have each : Pubkey.base58Alphabet.all (fun char => decide (char.toNat < 128)) = true := by decide
  exact of_decide_eq_true (List.all_eq_true.mp each char member)

theorem alphabet_below (byte : UInt8) (member : byte ∈ alphabet) : byte.toNat < 128 := by
  rcases List.mem_map.mp member with ⟨char, inside, same⟩
  have ascii := alphabet_ascii char inside
  rw [← same, UInt8.toNat_ofNat_of_lt' (show char.toNat < 256 by omega)]
  exact ascii

/-- A byte of the last kind of any character beyond ASCII. -/
theorem tail_outside (n : Nat) : UInt8.ofNat (n % 64 + 128) ∉ alphabet := by
  intro member
  have below := alphabet_below _ member
  rw [UInt8.toNat_ofNat_of_lt' (show n % 64 + 128 < 256 by omega)] at below
  omega

theorem outside_byte (char : Char) (outside : char ∉ Pubkey.base58Alphabet) :
    ∃ byte ∈ String.utf8EncodeChar char, byte ∉ alphabet := by
  rw [String.utf8EncodeChar]
  split
  · next ascii =>
      refine ⟨_, List.mem_singleton_self _, ?_⟩
      intro member
      rcases List.mem_map.mp member with ⟨other, inside, same⟩
      have small := alphabet_ascii other inside
      have numbers := congrArg UInt8.toNat same
      rw [UInt8.toNat_ofNat_of_lt' (show other.toNat < 256 by omega),
        UInt8.toNat_ofNat_of_lt' (show char.val.toNat < 256 by omega)] at numbers
      exact outside (Char.toNat_inj.mp numbers ▸ inside)
  · split
    · exact ⟨_, List.mem_cons_of_mem _ List.mem_cons_self, tail_outside _⟩
    · split
      · exact ⟨_, List.mem_cons_of_mem _ List.mem_cons_self, tail_outside _⟩
      · exact ⟨_, List.mem_cons_of_mem _ List.mem_cons_self, tail_outside _⟩

theorem readDigit_outside (filled : List UInt8) (c : UInt8) (outside : c ∉ alphabet) :
    readDigit filled c = .error () := by
  have none_ : alphabet.findIdx? (fun a => decide (a = c)) = none := by
    rw [List.findIdx?_eq_none_iff]
    intro a member
    rw [decide_eq_false_iff_not]
    intro same
    exact outside (same ▸ member)
  rw [readDigit, none_]

theorem foldlM_outside (bytes : List UInt8) (filled : List UInt8)
    (outside : ∃ byte ∈ bytes, byte ∉ alphabet) : bytes.foldlM readDigit filled = .error () := by
  induction bytes generalizing filled with
  | nil => simp at outside
  | cons byte rest ih =>
      rw [List.foldlM_cons]
      by_cases here : byte ∈ alphabet
      · rcases outside with ⟨bad, member, unknown⟩
        have later : ∃ byte ∈ rest, byte ∉ alphabet := by
          rcases List.mem_cons.mp member with same | inside
          · exact absurd (same ▸ here) unknown
          · exact ⟨bad, inside, unknown⟩
        cases readDigit filled byte with
        | error failed => rfl
        | ok next => exact ih next later
      · rw [readDigit_outside filled byte here]
        rfl

theorem bs58Decode_outside (input : String)
    (outside : ∃ char ∈ input.toList, char ∉ Pubkey.base58Alphabet) :
    bs58Decode input = .error () := by
  rcases outside with ⟨char, member, unknown⟩
  rcases outside_byte char unknown with ⟨byte, inside, bad⟩
  have failed := foldlM_outside (asBytes input) []
    ⟨byte, List.mem_flatMap.mpr ⟨char, member, inside⟩, bad⟩
  rw [bs58Decode, failed]
  rfl

/-! Small numbers: up to one byte filled before the last digit. -/

/-- The bytes of a number, the lowest first. -/
def bytesOf (n : Nat) : List UInt8 := (Nat.digits 256 n).map UInt8.ofNat

theorem bytesOf_of_lt (n : Nat) (small : n < 256) :
    bytesOf n = if n = 0 then [] else [UInt8.ofNat n] := by
  split
  · next zero =>
      rw [zero]
      simp [bytesOf]
  · next positive =>
      rw [bytesOf, Nat.digits_of_lt 256 n positive small]
      rfl

theorem bytesOf_of_le (n : Nat) (large : 256 ≤ n) (small : n < 65536) :
    bytesOf n = [UInt8.ofNat (n % 256), UInt8.ofNat (n / 256)] := by
  have high : n / 256 ≠ 0 := by omega
  rw [bytesOf, Nat.digits_def' (by norm_num) (by omega), Nat.digits_of_lt 256 (n / 256) high
    (by omega)]
  rfl

theorem multiplyAdd_bytesOf (value digit : Nat) (small : value < 256) :
    multiplyAdd (bytesOf value) digit =
      if value = 0 then ([], digit)
      else ([UInt8.ofNat ((digit + 58 * value) % 256)], (digit + 58 * value) / 256) := by
  rw [bytesOf_of_lt value small]
  split
  · rfl
  · simp only [multiplyAdd, List.foldr_cons, List.foldr_nil]
    rw [UInt8.toNat_ofNat_of_lt' small]

theorem pushCarry_small (filled : List UInt8) (carry : Nat) (room : filled.length < 64)
    (small : carry < 256) :
    pushCarry 4 filled carry = .ok (filled ++ if carry = 0 then [] else [UInt8.ofNat carry]) := by
  by_cases zero : carry = 0
  · simp [pushCarry, zero]
  · have rest : carry / 256 = 0 := by omega
    have low : carry % 256 = carry := Nat.mod_eq_of_lt small
    rw [pushCarry, if_neg zero, if_neg (by omega), rest, low, pushCarry, if_pos rfl, if_neg zero]

theorem findIdx?_alphabet (digit : Nat) (below : digit < 58) :
    alphabet.findIdx? (fun a => decide (a = alphabet.getD digit one)) = some digit := by
  have each : ∀ place : Fin 58,
      alphabet.findIdx? (fun a => decide (a = alphabet.getD place one)) = some (place : Nat) := by
    decide
  exact each ⟨digit, below⟩

/-- One more digit on a number of at most one byte. -/
theorem readDigit_bytesOf (value digit : Nat) (small : value < 256) (below : digit < 58) :
    readDigit (bytesOf value) (alphabet.getD digit one) = .ok (bytesOf (58 * value + digit)) := by
  rw [readDigit, findIdx?_alphabet digit below]
  dsimp only
  rw [multiplyAdd_bytesOf value digit small, Nat.add_comm digit]
  by_cases zero : value = 0
  · rw [if_pos zero, pushCarry_small [] digit (by decide) (by omega), zero, Nat.mul_zero,
      Nat.zero_add, bytesOf_of_lt digit (by omega), List.nil_append]
  · have carry : (58 * value + digit) / 256 < 256 := by omega
    have room : [UInt8.ofNat ((58 * value + digit) % 256)].length < 64 := by
      rw [List.length_singleton]
      decide
    rw [if_neg zero, pushCarry_small _ _ room carry]
    by_cases short : 58 * value + digit < 256
    · have positive : 58 * value + digit ≠ 0 := by omega
      rw [bytesOf_of_lt _ short, if_neg positive, if_pos (Nat.div_eq_of_lt short),
        Nat.mod_eq_of_lt short, List.append_nil]
    · have high : (58 * value + digit) / 256 ≠ 0 := by omega
      rw [bytesOf_of_le _ (not_lt.mp short) (by omega), if_neg high]
      rfl

/-- The bytes that stand for digits. -/
def digitBytes (digits : List Nat) : List UInt8 :=
  digits.map (fun digit => alphabet.getD digit one)

theorem foldlM_digits (n : Nat) (small : n < 58 * 256) :
    (digitBytes (Nat.digits 58 n).reverse).foldlM readDigit [] = .ok (bytesOf n) := by
  induction n using Nat.strongRecOn with
  | ind n ih =>
      rcases Nat.eq_zero_or_pos n with zero | positive
      · rw [zero]
        simp [digitBytes, bytesOf]
        rfl
      · have before := ih (n / 58) (Nat.div_lt_self positive (by norm_num)) (by omega)
        have step := readDigit_bytesOf (n / 58) (n % 58) (by omega) (by omega)
        rw [Nat.div_add_mod n 58] at step
        rw [Nat.digits_def' (by norm_num) positive, List.reverse_cons, digitBytes, List.map_append,
          List.foldlM_append]
        rw [digitBytes] at before
        rw [before, List.map_singleton, Fallible.ok_bind, List.foldlM_cons, step]
        rfl

theorem foldlM_ones (count : Nat) (rest : List UInt8) :
    (List.replicate count one ++ rest).foldlM readDigit [] = rest.foldlM readDigit [] := by
  have idle : readDigit [] one = .ok [] := by decide
  induction count with
  | zero => rfl
  | succ count ih =>
      rw [List.replicate_succ, List.cons_append, List.foldlM_cons, idle]
      exact ih

theorem utf8_alphabet (digit : Nat) (below : digit < 58) :
    String.utf8EncodeChar (Pubkey.base58Alphabet.getD digit '1') = [alphabet.getD digit one] := by
  have each : ∀ place : Fin 58, String.utf8EncodeChar (Pubkey.base58Alphabet.getD place '1') =
      [alphabet.getD place one] := by
    decide
  exact each ⟨digit, below⟩

theorem asBytes_bs58Encode (bytes : List UInt8) :
    asBytes (bs58Encode bytes) = List.replicate (leadingZeros bytes) one ++
      digitBytes (Nat.digits 58 (number bytes)).reverse := by
  rw [asBytes, bs58Encode, String.toList_ofList, List.flatMap_append]
  congr 1
  · induction leadingZeros bytes with
    | zero => rfl
    | succ count ih =>
        rw [List.replicate_succ, List.flatMap_cons, ih, List.replicate_succ]
        rfl
  · rw [digitBytes, List.flatMap_map, List.map_eq_flatMap]
    apply List.flatMap_congr
    intro digit member
    exact utf8_alphabet digit (Nat.digits_lt_base (by norm_num) (List.mem_reverse.mp member))

theorem alphabet_one (digit : Nat) (below : digit < 58)
    (marked : decide (alphabet.getD digit one = one) = true) : digit = 0 := by
  have index := findIdx?_alphabet digit below
  rw [of_decide_eq_true marked] at index
  have first : alphabet.findIdx? (fun a => decide (a = one)) = some 0 := by decide
  rw [first] at index
  exact (Option.some.inj index).symm

/-- Bytes are their leading zeros and the bytes of their number. -/
theorem bytes_eq (bytes : List UInt8) :
    List.replicate (leadingZeros bytes) 0 ++ (bytesOf (number bytes)).reverse = bytes := by
  have ofDigits : ∀ bytes : List UInt8,
      ofLeBytes bytes = Nat.ofDigits 256 (bytes.map UInt8.toNat) := by
    intro bytes
    induction bytes with
    | nil => rfl
    | cons byte rest ih => simp [ofLeBytes, Nat.ofDigits_cons, ih]
  have back : ∀ bytes : List UInt8, (bytes.map UInt8.toNat).map UInt8.ofNat = bytes := by
    intro bytes
    rw [List.map_map]
    exact List.map_id'' (fun byte => UInt8.ofNat_toNat) bytes
  induction bytes with
  | nil => simp [leadingZeros, number, bytesOf, ofLeBytes]
  | cons byte rest ih =>
      by_cases zero : byte = 0
      · have same : number (byte :: rest) = number rest := by
          rw [number, number, List.reverse_cons, zero, ofDigits, ofDigits, List.map_append,
            Nat.ofDigits_append]
          simp
        have more : leadingZeros (byte :: rest) = leadingZeros rest + 1 := by
          simp [leadingZeros, zero]
        rw [same, more, List.replicate_succ, List.cons_append, ih, zero]
      · have none_ : leadingZeros (byte :: rest) = 0 := by simp [leadingZeros, zero]
        have digits : Nat.digits 256 (number (byte :: rest)) =
            ((byte :: rest).reverse).map UInt8.toNat := by
          rw [number, ofDigits]
          apply Nat.digits_ofDigits 256 (by norm_num)
          · intro digit member
            rcases List.mem_map.mp member with ⟨held, -, same⟩
            rw [← same]
            exact held.toNat_lt
          · intro filled
            simp only [List.reverse_cons, List.map_append, List.map_cons, List.map_nil,
              List.getLast_append_singleton]
            intro nothing
            exact zero (UInt8.toNat_inj.mp nothing)
        rw [none_, bytesOf, digits, back, List.reverse_reverse]
        rfl

theorem bs58Decode_bs58Encode (bytes : List UInt8) (small : number bytes < 58 * 256) :
    bs58Decode (bs58Encode bytes) = .ok bytes := by
  have ones := Pubkey.takeWhile_digits 58 (fun digit => alphabet.getD digit one)
    (fun b => decide (b = one)) (number bytes) (leadingZeros bytes) one (by decide)
    (fun digit member => alphabet_one digit (Nat.digits_lt_base (by norm_num) member))
  have filled := foldlM_ones (leadingZeros bytes) (digitBytes (Nat.digits 58 (number bytes)).reverse)
  rw [foldlM_digits (number bytes) small] at filled
  rw [bs58Decode, asBytes_bs58Encode, filled, digitBytes, ones, List.length_replicate]
  exact congrArg Except.ok (bytes_eq bytes)

/-! The vaults. -/

theorem insertVault_small (vaults : Finset (List UInt8)) (v : Json) (key : Pubkey)
    (named : (v.index "pubkey").asStr = some key.display)
    (small : key.toNat < 58 * 256) : insertVault vaults v = insert key.toBytes vaults := by
  have numberIs : number key.toBytes = key.toNat := by
    rw [number, Pubkey.toBytes, List.reverse_reverse]
    exact ofLeBytes_leBytes 32 key.toNat (lt_of_lt_of_eq key.isLt (by norm_num))
  have decoded := bs58Decode_bs58Encode key.toBytes (numberIs ▸ small)
  rw [bs58Encode_toBytes] at decoded
  have wide : key.toBytes.length = 32 := by rw [Pubkey.toBytes, List.length_reverse, leBytes_length]
  rw [insertVault, named]
  dsimp only
  rw [decoded]
  dsimp only
  rw [if_pos wide]

theorem loadVaults_small (vaults : Finset (List UInt8)) (items : List Json) (keys : List Pubkey)
    (named : items.map (fun v => (v.index "pubkey").asStr) =
      keys.map (fun key => some key.display))
    (small : ∀ key ∈ keys, key.toNat < 58 * 256) :
    loadVaults vaults (some (.array items)) = vaults ∪ (keys.map Pubkey.toBytes).toFinset := by
  change items.foldl insertVault vaults = _
  induction items generalizing vaults keys with
  | nil =>
      cases keys with
      | nil => simp
      | cons key rest => cases named
  | cons item rest ih =>
      cases keys with
      | nil => cases named
      | cons key others =>
          rw [List.map_cons, List.map_cons, List.cons.injEq] at named
          rw [List.foldl_cons, insertVault_small vaults item key named.1
            (small key List.mem_cons_self), ih _ others named.2
            (fun other member => small other (List.mem_cons_of_mem _ member)), List.map_cons,
            List.toFinset_cons, Finset.insert_union, Finset.union_insert]

/-- Below 58 · 256 the decoder inverts the encoding and the vaults are the listed keys; a text
with a character outside the alphabet is always refused. -/
theorem decoder_inverts_below (bytes : List UInt8) (input : String) (items : List Json)
    (keys : List Pubkey) :
    (bytes.length ≤ 64 → number bytes < 58 * 256 →
        bs58Decode (bs58Encode bytes) = .ok bytes) ∧
      ((∃ char ∈ input.toList, char ∉ Pubkey.base58Alphabet) → bs58Decode input = .error ()) ∧
      (items.map (fun v => (v.index "pubkey").asStr) = keys.map (fun key => some key.display) →
        (∀ key ∈ keys, key.toNat < 58 * 256) →
          loadVaults ∅ (some (.array items)) = (keys.map Pubkey.toBytes).toFinset) := by
  refine ⟨fun _ small => bs58Decode_bs58Encode bytes small, bs58Decode_outside input, ?_⟩
  intro named small
  rw [loadVaults_small ∅ items keys named small, Finset.empty_union]

theorem decoder_inverts_below_highest :
    bs58Decode (bs58Encode [0, 57, 255]) = .ok [0, 57, 255] ∧ bs58Decode "0" = .error () ∧
      loadVaults ∅ (some (.array [.object [("pubkey", .string (Pubkey.ofNat 14847).display)]])) =
        [(Pubkey.ofNat 14847).toBytes].toFinset := by
  have below := decoder_inverts_below [0, 57, 255] "0"
    [.object [("pubkey", .string (Pubkey.ofNat 14847).display)]] [.ofNat 14847]
  exact ⟨below.1 (by decide) (by decide), below.2.1 ⟨'0', by decide, by decide⟩,
    below.2.2 rfl (by decide)⟩

/-- The mint of wrapped SOL decodes to other bytes, and its vault is not the listed one. -/
theorem wsol_decodes_wrong :
    bs58Decode (bs58Encode wsol.toBytes) ≠ .ok wsol.toBytes ∧
      loadVaults ∅ (some (.array [.object [("pubkey", .string (bs58Encode wsol.toBytes))]])) ≠
        {wsol.toBytes} := by
  constructor
  · decide +kernel
  · decide +kernel

end Helios.GeyserPlugin
