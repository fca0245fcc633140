import Aemlib.Run

/-!
# Scripted environments

An environment that answers from lists: what the transport's connect, read and write callbacks
report, one entry a call, and what the clock shows. It plays the part of the mocks of the
repository's tests and keeps the transport's side of the contract (`Script.honest`): a list that
has run out means success for connect and write and `WOULD_BLOCK` for read, and no entry is ever
reported for more bytes than the call offered or asked for.
-/

namespace Aemlib

open Machine

/-! ## The transport's side of the contract -/

structure Transport.Honest {σ : Type} (t : Transport σ) : Prop where
  read : ∀ f, t.read = some f → ∀ env len, (f env len).1.data.length ≤ len
  write : ∀ f, t.write = some f → ∀ env data, (f env data).1.outLen ≤ data.length

/-- A write that reports OK reports no more bytes than it was offered. -/
def Transport.WritesWithin {σ : Type} (t : Transport σ) : Prop :=
  ∀ f, t.write = some f → ∀ env data, (f env data).1.status = statusOk →
    (f env data).1.outLen ≤ data.length

theorem Transport.Honest.writesWithin {σ : Type} {t : Transport σ} (h : t.Honest) :
    t.WritesWithin :=
  fun f hf env data _ => h.write f hf env data

/-! ## Scripts -/

/-- What the callbacks will answer. The clock stays at its last entry. -/
structure Script where
  opens : List Status
  reads : List ReadResult
  writes : List WriteResult
  times : List UInt64
  deriving DecidableEq, Repr

namespace Script

def open_ (s : Script) : Status × Script :=
  match s.opens with
  | [] => (statusOk, s)
  | status :: rest => (status, { s with opens := rest })

def read (s : Script) (len : Nat) : ReadResult × Script :=
  match s.reads with
  | [] => (⟨ioWouldBlock, []⟩, s)
  | res :: rest => (⟨res.status, res.data.take len⟩, { s with reads := rest })

def write (s : Script) (data : List UInt8) : WriteResult × Script :=
  match s.writes with
  | [] => (⟨statusOk, data.length⟩, s)
  | res :: rest => (⟨res.status, min res.outLen data.length⟩, { s with writes := rest })

def now (s : Script) : UInt64 × Script :=
  match s.times with
  | [] => (0, s)
  | [ms] => (ms, s)
  | ms :: rest => (ms, { s with times := rest })

def transport : Transport Script where
  connect := some open_
  disconnect := some fun s => (statusOk, s)
  read := some read
  write := some write

theorem honest : transport.Honest where
  read f hf env len := by
    cases hf
    unfold read
    split
    · exact Nat.zero_le _
    · simp
  write f hf env data := by
    cases hf
    unfold write
    split
    · exact Nat.le_refl _
    · exact Nat.min_le_right _ _

def config (txSize rxSize : Fin (2 ^ 64)) (keepaliveMs : UInt64)
    (onMessage : Option (MessageFn Script)) : Config Script where
  txBuffer := some (List.replicate txSize 0)
  txBufferSize := txSize
  rxBuffer := some (List.replicate rxSize 0)
  rxBufferSize := rxSize
  transport := transport
  nowMs := some now
  keepaliveIntervalMs := keepaliveMs
  onMessage := onMessage
  txOwned b hb := by
    cases hb
    simp
  rxOwned b hb := by
    cases hb
    simp
  txSizeLt := txSize.isLt
  rxSizeLt := rxSize.isLt

def publishA (payload : List UInt8) : Call Script :=
  .request (.publish ⟨[0x61], Nat.one_lt_two_pow (by decide)⟩ payload 0)

def ioError : Status := mkStatus .io .io

def listen : MessageFn Script := fun s _ _ => ([], s)

end Script

end Aemlib
