import GrlxRpc.Lib.Searching
import GrlxRpc.Wire.Frame

/-
  The addresses that clients connect to.

  `tcp_channel` and `ssl_channel` split "host:port" on their
  own, the first with `parse_address`. Both cut at the last
  colon, but `parse_address` gives up on a second one.

  Main declarations:
    * `TcpChannel.parseAddress` and `TcpChannel.connect`
    * `SslChannel.connect`
    * `IsHost` and `Splits`
    * `splits_iff`
    * `splits_fails`
-/

------------------------------------------------------------
-- The Two Parsers
------------------------------------------------------------

namespace GrlxRpc

open Searching

def colon : UInt8 := 58

namespace TcpChannel

/- `detail::parse_address`. -/
def parseAddress
    (address : StdString) : StdString × StdString :=
  match rfind address colon with
  | none => (address, literal "0")
  | some colonPos =>
      if find address colon ≠ some colonPos then
        (address, literal "0")
      else
        (address.take colonPos, address.drop (colonPos + 1))

/- `resolve` stands for the resolver and what follows it. -/
def connect
    {ρ : Type}
    (resolve : StdString → StdString → ρ)
    (address : StdString) : ρ :=
  let (host, port) := parseAddress address
  resolve host port

end TcpChannel

namespace SslChannel

def connect
    {ρ : Type}
    (resolve : StdString → StdString → ρ)
    (address : StdString) : ρ :=
  let colonPos := rfind address colon
  let host := colonPos.elim address fun pos => address.take pos
  let port :=
    colonPos.elim (literal "0") fun pos =>
      address.drop (pos + 1)
  resolve host port

end SslChannel

------------------------------------------------------------
-- Putting Host And Port Together
------------------------------------------------------------

/- A name or dotted address, or an IPv6 one in brackets. -/
def IsHost (host : StdString) : Prop :=
  (host ≠ [] ∧ colon ∉ host) ∨
    ∃ x : StdString, 91 ∉ x ∧ 93 ∉ x ∧ host = 91 :: x ++ [93]

/- Both channels resolve the host and the port as given. -/
structure Splits (host port : StdString) : Prop where
  tcp :
    ∀ {ρ : Type} (resolve : StdString → StdString → ρ),
      TcpChannel.connect resolve (host ++ colon :: port) =
        resolve host port
  ssl :
    ∀ {ρ : Type} (resolve : StdString → StdString → ρ),
      SslChannel.connect resolve (host ++ colon :: port) =
        resolve host port

theorem sslSplits
    {ρ : Type}
    (resolve : StdString → StdString → ρ)
    (host : StdString)
    {port : StdString}
    (hPort : colon ∉ port) :
    SslChannel.connect resolve (host ++ colon :: port) =
      resolve host port := by
  simp [SslChannel.connect, rfind_append host hPort]

theorem parseAddress_append
    (host : StdString)
    {port : StdString}
    (hPort : colon ∉ port) :
    TcpChannel.parseAddress (host ++ colon :: port) =
      if colon ∈ host then
        (host ++ colon :: port, literal "0")
      else
        (host, port) := by
  have hFind := find_eq_rfind_iff host hPort
  rw [rfind_append host hPort] at hFind
  simp only [TcpChannel.parseAddress,
    rfind_append host hPort, ne_eq, hFind, not_not]
  by_cases hHost : colon ∈ host
  · rw [if_pos hHost, if_pos hHost]
  · rw [if_neg hHost, if_neg hHost]
    simp

/-
  The address of a host and a port is split into these by
  both channels exactly when the host has no colon.
-/
theorem splits_iff
    (host port : StdString)
    (hPort : colon ∉ port) :
    Splits host port ↔ colon ∉ host := by
  constructor
  · intro hSplits hHost
    have hPair := hSplits.tcp Prod.mk
    change TcpChannel.parseAddress _ = _ at hPair
    rw [parseAddress_append host hPort, if_pos hHost] at hPair
    have hLength := congrArg (List.length ∘ Prod.fst) hPair
    simp at hLength
  · intro hHost
    constructor
    case tcp =>
      intro ρ resolve
      simp only [TcpChannel.connect,
        parseAddress_append host hPort, if_neg hHost]
    case ssl =>
      intro ρ resolve
      exact sslSplits resolve host hPort

/- "10.0.0.7" and "8080". -/
theorem splits_dotted :
    Splits (literal "10.0.0.7") (literal "8080") :=
  (splits_iff (literal "10.0.0.7") (literal "8080")
    (by decide +kernel)).mpr (by decide +kernel)

/- "[::1]" and "8080", the example of the source. -/
theorem splits_fails :
    ¬ ∀ host port : StdString,
      IsHost host → colon ∉ port → Splits host port := by
  intro hAll
  have hHost : IsHost (literal "[::1]") :=
    .inr ⟨literal "::1", by decide +kernel, by decide +kernel,
      by decide +kernel⟩
  have hSplits :=
    (hAll (literal "[::1]") (literal "8080") hHost
      (by decide +kernel)).tcp Prod.mk
  exact absurd hSplits (by decide +kernel)

end GrlxRpc
