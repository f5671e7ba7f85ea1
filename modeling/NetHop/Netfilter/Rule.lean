import Mathlib.Data.List.Basic

/-!
# Packet filter rules

Rules of a packet filter as `iptables` has them: a list of matches that must all
hold, and a target.  A rule is written as the words that follow the name of its
chain, so a rule has a meaning on packets and a text.
-/

namespace NetHop.Netfilter

abbrev Mark := BitVec 32

inductive Protocol where
  | tcp
  | udp
  | other (number : Nat)
  deriving DecidableEq

/-- A range of addresses; `network` and `length` are its leading bits, out of `width`. -/
structure Cidr where
  text : String
  width : Nat
  network : Nat
  length : Nat
  deriving DecidableEq

/-- The address has the leading bits of the range. -/
def Cidr.covers (c : Cidr) (address : Nat) : Bool :=
  address >>> (c.width - c.length) == c.network >>> (c.width - c.length)

/-- What the rules read of a packet, apart from its mark. -/
structure Packet where
  protocol : Protocol
  destinationPort : Nat
  destination : Nat
  uid : UInt32
  inInterface : String
  outInterface : String
  /-- The packet travels against the direction its connection was opened in. -/
  reply : Bool
  /-- A socket bound to a foreign address takes the packet. -/
  transparentSocket : Bool

/-- An interface given in a rule; a trailing plus sign stands for any rest. -/
def interfaceMatches (pattern name : String) : Bool :=
  if pattern.toList.getLast? = some '+' then pattern.toList.dropLast.isPrefixOf name.toList
  else pattern == name

theorem interfaceMatches_self (name : String) : interfaceMatches name name = true := by
  unfold interfaceMatches
  split
  · exact List.isPrefixOf_iff_prefix.mpr <| List.dropLast_prefix name.toList
  · exact beq_self_eq_true name

inductive Match where
  | comment (text : String)
  | mark (value mask : Mark)
  | notMark (value mask : Mark)
  | outInterface (name : String)
  | inInterface (name : String)
  | replyDirection
  | protocol (p : Protocol)
  | destinationPort (port : Nat)
  | uidOwner (uid : UInt32)
  | destination (range : Cidr)
  | transparentSocket
  deriving DecidableEq

inductive Target where
  | accept
  | drop
  | ret
  | jump (chain : String)
  | setXmark (value mask : Mark)
  | tproxy (port : Nat) (value mask : Mark)
  deriving DecidableEq

structure Rule where
  tests : List Match
  target : Target
  deriving DecidableEq

def markMatches (value mask mark : Mark) : Bool := mark &&& mask == value

/-- `--set-xmark value/mask`. -/
def xmark (value mask mark : Mark) : Mark := (mark &&& ~~~mask) ^^^ value

def Match.holds (p : Packet) (mark : Mark) : Match → Bool
  | .comment _ => true
  | .mark value mask => markMatches value mask mark
  | .notMark value mask => !markMatches value mask mark
  | .outInterface name => interfaceMatches name p.outInterface
  | .inInterface name => interfaceMatches name p.inInterface
  | .replyDirection => p.reply
  | .protocol q => p.protocol == q
  | .destinationPort port => p.destinationPort == port
  | .uidOwner uid => p.uid == uid
  | .destination range => range.covers p.destination
  | .transparentSocket => p.transparentSocket

def Rule.matches (p : Packet) (mark : Mark) (r : Rule) : Bool := r.tests.all (Match.holds p mark)

/-! ## Marks -/

section

variable {value mask mark : Mark}

theorem getLsbD_of_within (h : value &&& ~~~mask = 0) {i : Nat} (hi : i < 32) :
    (value.getLsbD i && !mask.getLsbD i) = false := by
  have hbit : (value &&& ~~~mask).getLsbD i = false := by
    rw [h]
    simp
  rw [BitVec.getLsbD_and, BitVec.getLsbD_not] at hbit
  simpa only [hi, decide_true, Bool.true_and] using hbit

theorem getLsbD_xmark {i : Nat} (hi : i < 32) : (xmark value mask mark).getLsbD i =
      ((mark.getLsbD i && !mask.getLsbD i) ^^ value.getLsbD i) := by
  simp [xmark, hi]

variable (h : value &&& ~~~mask = 0)

include h

theorem xmark_and_mask : xmark value mask mark &&& mask = value := by
  apply BitVec.eq_of_getLsbD_eq
  intro i hi
  have hbit := getLsbD_of_within h hi
  rw [BitVec.getLsbD_and, getLsbD_xmark hi]
  revert hbit
  cases value.getLsbD i <;> cases mask.getLsbD i <;> simp

theorem markMatches_xmark : markMatches value mask (xmark value mask mark) = true := by
  unfold markMatches
  rw [xmark_and_mask h, beq_self_eq_true]

theorem xmark_xmark : xmark value mask (xmark value mask mark) = xmark value mask mark := by
  apply BitVec.eq_of_getLsbD_eq
  intro i hi
  have hbit := getLsbD_of_within h hi
  rw [getLsbD_xmark hi, getLsbD_xmark hi]
  revert hbit
  cases mark.getLsbD i <;> cases value.getLsbD i <;> cases mask.getLsbD i <;> simp

end

/-! ## Text -/

/-- `format!("0x{:x}")`. -/
def hex (m : Mark) : String := "0x" ++ String.ofList (Nat.toDigits 16 m.toNat)

def markMask (value mask : Mark) : String := hex value ++ "/" ++ hex mask

def Protocol.word : Protocol → String
  | .tcp => "tcp"
  | .udp => "udp"
  | .other number => toString number

def Match.words : Match → List String
  | .comment text => ["-m", "comment", "--comment", text]
  | .mark value mask => ["-m", "mark", "--mark", markMask value mask]
  | .notMark value mask => ["-m", "mark", "!", "--mark", markMask value mask]
  | .outInterface name => ["-o", name]
  | .inInterface name => ["-i", name]
  | .replyDirection => ["-m", "conntrack", "--ctdir", "REPLY"]
  | .protocol p => ["-p", p.word]
  | .destinationPort port => ["--dport", toString port]
  | .uidOwner uid => ["-m", "owner", "--uid-owner", toString uid.toNat]
  | .destination range => ["-d", range.text]
  | .transparentSocket => ["-m", "socket", "--transparent"]

def Target.words : Target → List String
  | .accept => ["-j", "ACCEPT"]
  | .drop => ["-j", "DROP"]
  | .ret => ["-j", "RETURN"]
  | .jump chain => ["-j", chain]
  | .setXmark value mask => ["-j", "MARK", "--set-xmark", markMask value mask]
  | .tproxy port value mask =>
    ["-j", "TPROXY", "--on-port", toString port, "--tproxy-mark", markMask value mask]

/-- The words of a rule after the name of its chain. -/
def Rule.words (r : Rule) : List String := r.tests.flatMap Match.words ++ r.target.words

def Rule.jumpsTo (r : Rule) : Option String :=
  match r.target with
  | .jump chain => some chain
  | _ => none

end NetHop.Netfilter
