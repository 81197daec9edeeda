import Mathlib.Algebra.BigOperators.Group.List.Basic
import Mathlib.Algebra.Ring.Nat
import Mathlib.Data.Int.Notation

/-!
The parts of the Go library the proxy uses. A Go string is its list of bytes.
`net.SplitHostPort` and `strconv.Atoi` follow their documentation and return
`none` where the Go functions return an error. A TCP connection is what its
Reads still have to deliver, cut into segments, and what has been written to it.
-/
namespace Jterm.GoNet

abbrev Bytes := List UInt8

/-- The bytes of an ASCII literal. -/
def ascii (s : String) : Bytes := s.toList.map fun c => c.toNat.toUInt8

/-- `strings.Contains` -/
def contains : Bytes → Bytes → Bool
  | [], substr => substr.isEmpty
  | c :: s, substr => substr.isPrefixOf (c :: s) || contains s substr

/-- `bytealg.IndexByteString` -/
def indexByte (s : Bytes) (c : UInt8) : Option ℕ := s.idxOf? c

/-- `bytealg.LastIndexByteString` -/
def lastIndexByte (s : Bytes) (c : UInt8) : Option ℕ :=
  (s.reverse.idxOf? c).map fun i => s.length - 1 - i

/-- `net.SplitHostPort`; `j` and `k` are the places from which a stray bracket is an error. -/
def splitHostPort (hostport : Bytes) : Option (Bytes × Bytes) := do
  let i ← lastIndexByte hostport 0x3a
  let (host, j, k) ←
    if hostport.head? = some 0x5b then do
      let last ← indexByte hostport 0x5d
      if last + 1 = i then some ((hostport.take last).drop 1, 1, last + 1) else none
    else
      if (indexByte (hostport.take i) 0x3a).isSome then none else some (hostport.take i, 0, 0)
  if (indexByte (hostport.drop j) 0x5b).isSome then none
  else if (indexByte (hostport.drop k) 0x5d).isSome then none
  else some (host, hostport.drop (i + 1))

/-- One more decimal digit; anything else is a syntax error. -/
def atoiDigits : ℕ → Bytes → Option ℕ
  | n, [] => some n
  | n, c :: rest =>
      if 0x30 ≤ c ∧ c ≤ 0x39 then atoiDigits (10 * n + (c.toNat - 0x30)) rest else none

/-- `strconv.Atoi` on a 64-bit machine: an optional sign, then at least one digit,
then the range check. -/
def atoi (s : Bytes) : Option ℤ := do
  let (negative, digits) := match s with
    | 0x2d :: rest => (true, rest)
    | 0x2b :: rest => (false, rest)
    | rest => (false, rest)
  if digits = [] then none
  else do
    let n ← atoiDigits 0 digits
    if negative then (if n ≤ 2 ^ 63 then some (-(n : ℤ)) else none)
    else (if n < 2 ^ 63 then some (n : ℤ) else none)

/-- Who put an octet on the wire. No function of the proxy looks at it. -/
inductive Sender
  | socksServer
  | destination
  deriving DecidableEq, Repr

structure Octet where
  val : UInt8
  sender : Sender
  deriving DecidableEq, Repr

/-- `incoming` is what the network still delivers, one list for each arrival;
`writable` says whether Writes succeed. -/
structure Conn where
  incoming : List (List Octet)
  written : Bytes
  writable : Bool
  deriving DecidableEq, Repr

/-- `conn.Read` into a buffer of `size` bytes; `none` is an error. A longer arrival
is handed out in pieces. -/
def Conn.read (conn : Conn) (size : ℕ) : Option (List Octet × Conn) :=
  match conn.incoming with
  | [] => none
  | data :: rest =>
      if data.length ≤ size then some (data, { conn with incoming := rest })
      else some (data.take size, { conn with incoming := data.drop size :: rest })

/-- `conn.Write` -/
def Conn.write (conn : Conn) (bytes : Bytes) : Conn :=
  if conn.writable then { conn with written := conn.written ++ bytes } else conn

@[simp] theorem Conn.write_incoming (conn : Conn) (bytes : Bytes) :
    (conn.write bytes).incoming = conn.incoming := by
  unfold Conn.write
  split <;> rfl

@[simp] theorem Conn.write_writable (conn : Conn) (bytes : Bytes) :
    (conn.write bytes).writable = conn.writable := by
  unfold Conn.write
  split <;> rfl

theorem Conn.write_written (conn : Conn) (bytes : Bytes) (h : conn.writable = true) :
    (conn.write bytes).written = conn.written ++ bytes := by
  simp [Conn.write, h]

/-- A Read takes the front of the stream and leaves the rest. -/
theorem Conn.read_stream {conn conn' : Conn} {size : ℕ} {data : List Octet}
    (h : conn.read size = some (data, conn')) :
    conn.incoming.flatten = data ++ conn'.incoming.flatten := by
  unfold Conn.read at h
  split at h
  · simp at h
  · rename_i first rest heq
    split at h <;> simp only [Option.some.injEq, Prod.mk.injEq] at h <;> obtain ⟨rfl, rfl⟩ := h
    · simp [heq]
    · simp [heq, ← List.append_assoc]

/-- The rest of the arrivals is as long as before or shorter, and shorter in all
whenever the buffer has room. -/
theorem Conn.read_decreases {conn conn' : Conn} {size : ℕ} {data : List Octet}
    (hsize : 0 < size) (h : conn.read size = some (data, conn')) :
    (conn'.incoming.map fun a => a.length + 1).sum <
      (conn.incoming.map fun a => a.length + 1).sum := by
  unfold Conn.read at h
  split at h
  · simp at h
  · rename_i first rest heq
    split at h <;> simp only [Option.some.injEq, Prod.mk.injEq] at h <;> obtain ⟨rfl, rfl⟩ := h
    · simp [heq]
    · simp only [heq, List.map_cons, List.sum_cons, List.length_drop]
      omega

end Jterm.GoNet
