import LorePia.Base.Result
import LorePia.Base.Sort
import Mathlib.Data.Prod.Lex

/-!
# Network addresses and DNS pinning (`crates/providers/src/url_policy.rs`)

Addresses are the bit vectors of `u32::from` and `u128::from`. The parsing of URLs is left out: an approval
takes its origin and the address that the origin's host spells, if any. Of `UrlPolicyError` the variants
that these functions return are here.
-/

namespace LorePia

open Base

abbrev Ipv4Addr := BitVec 32
abbrev Ipv6Addr := BitVec 128

inductive IpAddr
  | v4 (address : Ipv4Addr)
  | v6 (address : Ipv6Addr)
deriving DecidableEq

/-- The derived order: the variant first, then the address. -/
def IpAddr.key : IpAddr → Nat ×ₗ Nat
  | .v4 address => toLex (0, address.toNat)
  | .v6 address => toLex (1, address.toNat)

theorem IpAddr.key_injective : Function.Injective IpAddr.key := by
  intro a b h
  cases a <;> cases b <;> simp_all [IpAddr.key, BitVec.toNat_inj]

instance : LinearOrder IpAddr := LinearOrder.lift' IpAddr.key IpAddr.key_injective

inductive IpAddressClass
  | public_
  | unspecified
  | loopback
  | private_
  | linkLocal
  | carrierGradeNat
  | multicast
  | documentation
  | benchmark
  | metadata
  | reserved
deriving DecidableEq

inductive UrlPolicyError
  | disallowedIpAddress (address : IpAddr) (class_ : IpAddressClass)
  | emptyDnsAnswers
  | tooManyDnsAnswers
  | mixedDnsAddressScopes
  | dnsAnswersChanged
  | dnsAnswerDoesNotMatchLiteral
  | peerAddressNotValidated
  | lanApprovalRequiresPrivateAddresses
  | lanOriginAddressNotApproved
deriving DecidableEq

def maxDnsAnswers : Nat := 16

/-! ## Classes of addresses -/

/-- `ipv4_in_prefix` and `ipv6_in_prefix`. -/
def inPrefix {w : Nat} (address network : BitVec w) (length : Nat) : Bool :=
  let mask : BitVec w := if length = 0 then 0 else BitVec.allOnes w <<< (w - length)
  address &&& mask == network &&& mask

/-- `Ipv4Addr::new`. -/
def ipv4Addr (first second third fourth : BitVec 8) : Ipv4Addr := first ++ second ++ third ++ fourth

/-- The metadata endpoints of `classify_ipv4`. -/
def ipv4Metadata : List Ipv4Addr :=
  [ipv4Addr 169 254 169 254, ipv4Addr 169 254 170 2, ipv4Addr 100 100 100 200, ipv4Addr 168 63 129 16,
    ipv4Addr 192 0 0 192]

def classifyIpv4 (address : Ipv4Addr) : IpAddressClass :=
  if address ∈ ipv4Metadata then .metadata
  else if inPrefix address 0x00000000 8 then .unspecified
  else if inPrefix address 0x7f000000 8 then .loopback
  else if inPrefix address 0x0a000000 8 || inPrefix address 0xac100000 12 ||
      inPrefix address 0xc0a80000 16 then .private_
  else if inPrefix address 0xa9fe0000 16 then .linkLocal
  else if inPrefix address 0x64400000 10 then .carrierGradeNat
  else if inPrefix address 0xe0000000 4 then .multicast
  else if inPrefix address 0xc0000200 24 || inPrefix address 0xc6336400 24 ||
      inPrefix address 0xcb007100 24 then .documentation
  else if inPrefix address 0xc6120000 15 then .benchmark
  else if inPrefix address 0xc0000000 24 || inPrefix address 0xc0586300 24 ||
      inPrefix address 0xf0000000 4 then .reserved
  else .public_

/-- `address.segments()[index]`. -/
def segment (address : Ipv6Addr) (index : Nat) : BitVec 16 := address.extractLsb' (16 * (7 - index)) 16

def ipv6Value (s₀ s₁ s₂ s₃ s₄ s₅ s₆ s₇ : BitVec 16) : Ipv6Addr :=
  s₀.setWidth 128 <<< 112 ||| s₁.setWidth 128 <<< 96 ||| s₂.setWidth 128 <<< 80 |||
    s₃.setWidth 128 <<< 64 ||| s₄.setWidth 128 <<< 48 ||| s₅.setWidth 128 <<< 32 |||
    s₆.setWidth 128 <<< 16 ||| s₇.setWidth 128

def ipv4FromTail (high low : BitVec 16) : Ipv4Addr := high ++ low

/-- The segments before `index`. -/
def segmentsBefore (address : Ipv6Addr) (index : Nat) : List (BitVec 16) :=
  (List.range index).map (segment address)

def ipv4Mapped (address : Ipv6Addr) : Option Ipv4Addr :=
  if segmentsBefore address 5 = [0, 0, 0, 0, 0] ∧ segment address 5 = 0xffff then
    some (ipv4FromTail (segment address 6) (segment address 7))
  else none

def wellKnownNat64Ipv4 (address : Ipv6Addr) : Option Ipv4Addr :=
  if segmentsBefore address 6 = [0x0064, 0xff9b, 0, 0, 0, 0] then
    some (ipv4FromTail (segment address 6) (segment address 7))
  else none

def isGloballyReachableIetfAssignment (address : Ipv6Addr) : Bool :=
  [ipv6Value 0x2001 1 0 0 0 0 0 1, ipv6Value 0x2001 1 0 0 0 0 0 2, ipv6Value 0x2001 1 0 0 0 0 0 3].contains
      address ||
    inPrefix address (ipv6Value 0x2001 3 0 0 0 0 0 0) 32 ||
    inPrefix address (ipv6Value 0x2001 4 0x0112 0 0 0 0 0) 48 ||
    inPrefix address (ipv6Value 0x2001 0x0020 0 0 0 0 0 0) 28 ||
    inPrefix address (ipv6Value 0x2001 0x0030 0 0 0 0 0 0) 28

/-- The blocks that `classify_ipv6` reserves at its end. -/
def isReservedIpv6 (address : Ipv6Addr) : Bool :=
  inPrefix address (ipv6Value 0x0100 0 0 0 0 0 0 0) 64 ||
    inPrefix address (ipv6Value 0x0064 0xff9b 1 0 0 0 0 0) 48 ||
    inPrefix address (ipv6Value 0x2002 0 0 0 0 0 0 0) 16 ||
    inPrefix address (ipv6Value 0x5f00 0 0 0 0 0 0 0) 16 ||
    inPrefix address (ipv6Value 0xfec0 0 0 0 0 0 0 0) 10 ||
    !inPrefix address (ipv6Value 0x2000 0 0 0 0 0 0 0) 3

def classifyIpv6 (address : Ipv6Addr) : IpAddressClass :=
  match ipv4Mapped address with
  | some mapped => classifyIpv4 mapped
  | none =>
    if address = 0 then .unspecified
    else if address = 1 then .loopback
    else if inPrefix address (ipv6Value 0xfd00 0x0ec2 0 0 0 0 0 0) 64 && segment address 7 == 0x0254 then
      .metadata
    else if inPrefix address (ipv6Value 0xfc00 0 0 0 0 0 0 0) 7 then .private_
    else if inPrefix address (ipv6Value 0xfe80 0 0 0 0 0 0 0) 10 then .linkLocal
    else if inPrefix address (ipv6Value 0xff00 0 0 0 0 0 0 0) 8 then .multicast
    else if inPrefix address (ipv6Value 0x2001 0x0db8 0 0 0 0 0 0) 32 ||
        inPrefix address (ipv6Value 0x3fff 0 0 0 0 0 0 0) 20 then .documentation
    else if inPrefix address (ipv6Value 0x2001 0x0002 0 0 0 0 0 0) 48 then .benchmark
    else
      match wellKnownNat64Ipv4 address with
      | some translated => classifyIpv4 translated
      | none =>
        if inPrefix address (ipv6Value 0x2001 0 0 0 0 0 0 0) 23 &&
            !isGloballyReachableIetfAssignment address then .reserved
        else if isReservedIpv6 address then .reserved
        else .public_

def classifyIpAddress : IpAddr → IpAddressClass
  | .v4 address => classifyIpv4 address
  | .v6 address => classifyIpv6 address

def normalizeIp : IpAddr → IpAddr
  | .v6 address =>
    match ipv4Mapped address with
    | some mapped => .v4 mapped
    | none => .v6 address
  | .v4 address => .v4 address

/-! ## Policies -/

inductive OriginScheme
  | http
  | https
deriving DecidableEq

structure CanonicalOrigin where
  scheme : OriginScheme
  host : String
  port : UInt16
deriving DecidableEq

def validateApprovedLocalAddresses (addresses : List IpAddr) : Except UrlPolicyError (List IpAddr) := do
  rejectIf (addresses = [] ∨ addresses.length > maxDnsAnswers) .lanApprovalRequiresPrivateAddresses
  let normalized := addresses.map normalizeIp
  rejectIf (∃ address ∈ normalized, classifyIpAddress address ≠ .private_)
    .lanApprovalRequiresPrivateAddresses
  pure (sortDedup normalized)

/-- An approval: its addresses are sorted and private. -/
structure ApprovedLocalNetworkOrigin where
  origin : CanonicalOrigin
  addresses : List IpAddr
  sorted : addresses.Pairwise (· < ·)
  isPrivate : ∀ address ∈ addresses, classifyIpAddress address = .private_

theorem validateApprovedLocalAddresses_eq_ok {addresses approved : List IpAddr}
    (h : validateApprovedLocalAddresses addresses = .ok approved) :
    approved.Pairwise (· < ·) ∧ ∀ address ∈ approved, classifyIpAddress address = .private_ := by
  obtain ⟨-, h⟩ := seq_eq_ok.1 h
  obtain ⟨hprivate, h⟩ := seq_eq_ok.1 h
  obtain rfl := pure_eq_ok.1 h
  refine ⟨sortDedup_pairwise _, fun address hmem => ?_⟩
  by_contra hnot
  exact rejectIf_eq_ok.1 hprivate ⟨address, mem_sortDedup.1 hmem, hnot⟩

/-- `ApprovedLocalNetworkOrigin::new`, from the origin and the address that its host spells. -/
def ApprovedLocalNetworkOrigin.new (origin : CanonicalOrigin) (originHostIp : Option IpAddr)
    (addresses : List IpAddr) : Except UrlPolicyError ApprovedLocalNetworkOrigin :=
  match h : validateApprovedLocalAddresses addresses with
  | .error error => .error error
  | .ok approved =>
    if ∃ literal ∈ originHostIp, approved ≠ [normalizeIp literal] then .error .lanOriginAddressNotApproved
    else .ok ⟨origin, approved, (validateApprovedLocalAddresses_eq_ok h).1,
      (validateApprovedLocalAddresses_eq_ok h).2⟩

def ApprovedLocalNetworkOrigin.permitsAddress (approval : ApprovedLocalNetworkOrigin)
    (address : IpAddr) : Bool :=
  binarySearch approval.addresses (normalizeIp address)

inductive UrlPolicyKind
  | public_
  | localLoopback
  | approvedLocalNetwork (approval : ApprovedLocalNetworkOrigin)

structure UrlPolicy where
  kind : UrlPolicyKind

/-! ## DNS answers -/

def validateAddressWithPolicy (address : IpAddr) (policy : UrlPolicy) : Except UrlPolicyError Unit :=
  let address := normalizeIp address
  let class_ := classifyIpAddress address
  match policy.kind with
  | .public_ =>
    if class_ = .public_ then .ok () else .error (.disallowedIpAddress address class_)
  | .localLoopback =>
    if class_ = .loopback then .ok () else .error (.disallowedIpAddress address class_)
  | .approvedLocalNetwork approval =>
    if class_ ≠ .private_ then .error (.disallowedIpAddress address class_)
    else if approval.permitsAddress address then .ok ()
    else .error .lanOriginAddressNotApproved

structure ValidatedDnsAnswers where
  policy : UrlPolicy
  addresses : List IpAddr

/-- What the loop of `validate_dns_answers_with_policy` collects. -/
structure DnsScan where
  normalized : List IpAddr
  firstDisallowed : Option UrlPolicyError
  hasAllowed : Bool
  hasDisallowed : Bool

/-- One answer of the loop. -/
def scanAnswer (policy : UrlPolicy) (scan : DnsScan) (original : IpAddr) : DnsScan :=
  let address := normalizeIp original
  match validateAddressWithPolicy address policy with
  | .ok () => { scan with normalized := scan.normalized ++ [address], hasAllowed := true }
  | .error error =>
    { scan with
      normalized := scan.normalized ++ [address]
      firstDisallowed := scan.firstDisallowed.or (some error)
      hasDisallowed := true }

def validateDnsAnswersWithPolicy (policy : UrlPolicy) (answers : List IpAddr) :
    Except UrlPolicyError ValidatedDnsAnswers := do
  rejectIf (answers = []) .emptyDnsAnswers
  rejectIf (answers.length > maxDnsAnswers) .tooManyDnsAnswers
  let scan := answers.foldl (scanAnswer policy) ⟨[], none, false, false⟩
  rejectIf (scan.hasAllowed && scan.hasDisallowed) .mixedDnsAddressScopes
  forSome scan.firstDisallowed fun error => .error error
  pure ⟨policy, sortDedup scan.normalized⟩

namespace ValidatedDnsAnswers

def contains (validated : ValidatedDnsAnswers) (address : IpAddr) : Bool :=
  binarySearch validated.addresses (normalizeIp address)

def revalidate (validated : ValidatedDnsAnswers) (answers : List IpAddr) : Except UrlPolicyError Unit := do
  let current ← validateDnsAnswersWithPolicy validated.policy answers
  rejectIf (current.addresses ≠ validated.addresses) .dnsAnswersChanged

def validatePeer (validated : ValidatedDnsAnswers) (peer : IpAddr) : Except UrlPolicyError Unit := do
  validateAddressWithPolicy peer validated.policy
  rejectIf (validated.contains peer = false) .peerAddressNotValidated

end ValidatedDnsAnswers

/-- `validate_dns_answers_for_url`, for the policy of the URL and the address that its host spells. -/
def validateDnsAnswersForUrl (policy : UrlPolicy) (hostIp : Option IpAddr) (answers : List IpAddr) :
    Except UrlPolicyError ValidatedDnsAnswers := do
  let validated ← validateDnsAnswersWithPolicy policy answers
  rejectIf (∃ literal ∈ hostIp, validated.addresses ≠ [normalizeIp literal]) .dnsAnswerDoesNotMatchLiteral
  pure validated

end LorePia
