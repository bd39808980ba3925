import QuayTitan.Library.ByteFields
import Mathlib.Logic.Function.Basic

/-! # Accounts, addresses and instructions of the Solana runtime -/

namespace QuayTitan

open ByteFields

/-! ## Addresses -/

/-- A 32-byte address. -/
structure Pubkey where
  bytes : Bytes
  length_bytes : bytes.length = 32
deriving DecidableEq

namespace Pubkey

attribute [simp] length_bytes

def ofBytes? (bytes : Bytes) : Option Pubkey :=
  if h : bytes.length = 32 then some ⟨bytes, h⟩ else none

@[simp] theorem ofBytes?_bytes (key : Pubkey) : ofBytes? key.bytes = some key := by
  simp [ofBytes?, key.length_bytes]

/-- The address whose bytes spell `value`, most significant byte first. -/
def ofNat (value : ℕ) : Pubkey where
  bytes := (leBytes 32 value).reverse
  length_bytes := by simp

instance : Inhabited Pubkey := ⟨ofNat 0⟩

def base58Alphabet : List Char :=
  "123456789ABCDEFGHJKLMNPQRSTUVWXYZabcdefghijkmnopqrstuvwxyz".toList

/-- The `pubkey!` macro: an address from its base-58 spelling. -/
def ofBase58 (text : String) : Pubkey :=
  ofNat (text.toList.foldl (fun value c => 58 * value + base58Alphabet.idxOf c) 0)

end Pubkey

def splTokenId : Pubkey := .ofBase58 "TokenkegQfeZyiNwAJbNbGKPFXCWuBvf9Ss623VQ5DA"
def token2022Id : Pubkey := .ofBase58 "TokenzQdBNbLqP5VEhdkAS6EPFLC1PHnBqCXEpPxuEb"
def systemProgramId : Pubkey := .ofNat 0
def nativeMintId : Pubkey := .ofBase58 "So11111111111111111111111111111111111111112"
def nativeMint2022Id : Pubkey := .ofBase58 "9pan9bMn5HatX4EJdBwg9VgCa7Uz5HL8N1m5D3NdXej9"
def sysvarClockId : Pubkey := .ofBase58 "SysvarC1ock11111111111111111111111111111111"
def sysvarInstructionsId : Pubkey :=
  .ofBase58 "Sysvar1nstructions1111111111111111111111111"

/-- The token programs and the system program are three different programs. -/
theorem splTokenId_ne_token2022Id : splTokenId ≠ token2022Id := by decide +kernel

theorem splTokenId_ne_systemProgramId : splTokenId ≠ systemProgramId := by decide +kernel

theorem token2022Id_ne_systemProgramId : token2022Id ≠ systemProgramId := by decide +kernel

/-! ## Accounts -/

/-- The parts of an account a program reads; `lamports` and `data` are live, so two
references to one address always see the same account. -/
structure Account where
  lamports : ℕ
  data : Bytes
  owner : Pubkey
deriving DecidableEq

/-- An address nothing was ever stored at. -/
def Account.absent : Account := ⟨0, [], systemProgramId⟩

/-- The accounts of the chain, by address. -/
abbrev Bank := Pubkey → Account

/-- An `AccountInfo` handed to an instruction: an address with the runtime's flags. -/
structure AccountInfo where
  key : Pubkey
  isSigner : Bool
  isWritable : Bool
deriving DecidableEq

structure AccountMeta where
  pubkey : Pubkey
  isSigner : Bool
  isWritable : Bool
deriving DecidableEq

structure Instruction where
  programId : Pubkey
  accounts : List AccountMeta
  data : Bytes
deriving DecidableEq

def u64Max : ℕ := 2 ^ 64 - 1

/-- The address stored in the 32 bytes at `offset`. -/
def getKey (data : Bytes) (offset : ℕ) : Option Pubkey :=
  (getField data offset 32).bind Pubkey.ofBytes?

theorem getKey_putLE_of_disjoint {data : Bytes} {offset width other : ℕ} (value : ℕ)
    (h : offset + width ≤ data.length)
    (hdisjoint : other + 32 ≤ offset ∨ offset + width ≤ other) :
    getKey (putLE data offset width value) other = getKey data other := by
  rw [getKey, getKey, getField_putLE_of_disjoint value h hdisjoint]

end QuayTitan
