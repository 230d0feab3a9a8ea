import LorePia.Orchestration.MemoryJobs
import LorePia.Domain.Proof.Validate

/-!
# The idempotency keys of memory jobs

The nine hashed fields carry their lengths, so the hashed bytes determine them (`hashedBytes_inj`), and the
fields determine the input except for one thing: an absent profile is hashed as the empty id at schema version
0 (`Hides`). While the hash does not collide on the two inputs, keys separate exactly the inputs of which
neither hides the other.
-/

namespace LorePia

open Base

/-! ## The digits of a digest -/

theorem hexDigit_inj {m n : Nat} (hm : m < 16) (hn : n < 16) (h : hexDigit m = hexDigit n) : m = n := by
  have htable : ∀ m < 16, ∀ n < 16, hexDigit m = hexDigit n → m = n := by decide
  exact htable m hm n hn h

theorem hexDigits_inj : ∀ {a b : List UInt8}, hexDigits a = hexDigits b → a = b
  | [], [], _ => rfl
  | [], _ :: _, h => nomatch h
  | _ :: _, [], h => nomatch h
  | x :: xs, y :: ys, h => by
    have hx := x.toNat_lt
    have hy := y.toNat_lt
    simp only [hexDigits, List.flatMap_cons, List.cons_append, List.nil_append, List.cons.injEq] at h
    obtain ⟨hhigh, hlow, hrest⟩ := h
    have hdiv := hexDigit_inj (by omega) (by omega) hhigh
    have hmod := hexDigit_inj (by omega) (by omega) hlow
    have hbyte : x = y := UInt8.toNat_inj.1 (by omega)
    rw [hbyte, hexDigits_inj hrest]

theorem hexEncode_inj {a b : List UInt8} (h : hexEncode a = hexEncode b) : a = b :=
  hexDigits_inj (String.ofList_injective h)

/-! ## The hashed bytes -/

theorem memoryJobKindLabel_inj {a b : MemoryJobKind} (h : memoryJobKindLabel a = memoryJobKindLabel b) :
    a = b := by
  revert h
  cases a <;> cases b <;> decide

namespace MemoryJobKeyInput

theorem length_hashedFields (input : MemoryJobKeyInput) :
    ∀ field ∈ input.hashedFields, field.length < 256 ^ 8 := by
  have hlong : ∀ text ∈ [input.conversationId, input.branchId, input.sourceStartMessageId,
      input.sourceEndMessageId, input.profileId.getD "", input.sourceRevision],
      (utf8Bytes text).length < 256 ^ 8 := input.addressable
  have hkind : (utf8Bytes (memoryJobKindLabel input.kind)).length < 256 ^ 8 := by
    cases input.kind <;> decide
  have hversion : (beBytes 4 (input.profileSchemaVersion.getD 0).toNat).length < 256 ^ 8 := by
    rw [length_beBytes]
    decide
  simp only [List.forall_mem_cons, List.not_mem_nil, false_implies, implies_true, and_true] at hlong
  obtain ⟨hconversation, hbranch, hstart, hend, hprofile, hrevision⟩ := hlong
  simp only [hashedFields, List.forall_mem_cons, List.not_mem_nil, false_implies, implies_true, and_true]
  exact ⟨by decide, hkind, hconversation, hbranch, hstart, hend, hprofile, hversion, hrevision⟩

theorem hashedBytes_inj {a b : MemoryJobKeyInput} (h : a.hashedBytes = b.hashedBytes) :
    a.hashedFields = b.hashedFields :=
  flatMap_prefixed_inj (by decide) a.length_hashedFields b.length_hashedFields h

/-- The two inputs agree, an absent profile counting as the empty id at version 0. -/
structure Agrees (a b : MemoryJobKeyInput) : Prop where
  kind : a.kind = b.kind
  conversationId : a.conversationId = b.conversationId
  branchId : a.branchId = b.branchId
  sourceStartMessageId : a.sourceStartMessageId = b.sourceStartMessageId
  sourceEndMessageId : a.sourceEndMessageId = b.sourceEndMessageId
  profileId : a.profileId.getD "" = b.profileId.getD ""
  profileSchemaVersion : a.profileSchemaVersion.getD 0 = b.profileSchemaVersion.getD 0
  sourceRevision : a.sourceRevision = b.sourceRevision

theorem hashedFields_eq_iff {a b : MemoryJobKeyInput} : a.hashedFields = b.hashedFields ↔ a.Agrees b := by
  constructor
  · intro h
    simp only [hashedFields, List.cons.injEq, and_true, true_and] at h
    obtain ⟨hkind, hconversation, hbranch, hstart, hend, hprofile, hversion, hrevision⟩ := h
    exact {
      kind := memoryJobKindLabel_inj (utf8Bytes_inj hkind)
      conversationId := utf8Bytes_inj hconversation
      branchId := utf8Bytes_inj hbranch
      sourceStartMessageId := utf8Bytes_inj hstart
      sourceEndMessageId := utf8Bytes_inj hend
      profileId := utf8Bytes_inj hprofile
      profileSchemaVersion :=
        UInt32.toNat_inj.1 (beBytes_inj (UInt32.toNat_lt _) (UInt32.toNat_lt _) hversion)
      sourceRevision := utf8Bytes_inj hrevision }
  · intro h
    rw [hashedFields, hashedFields, h.kind, h.conversationId, h.branchId, h.sourceStartMessageId,
      h.sourceEndMessageId, h.profileId, h.profileSchemaVersion, h.sourceRevision]

/-! ## Absent profiles -/

/-- `a` has no profile and `b` has the empty id at version 0, and they agree on everything else. -/
def Hides (a b : MemoryJobKeyInput) : Prop :=
  a.profileId = none ∧ a.profileSchemaVersion = none ∧ b.profileId = some "" ∧
    b.profileSchemaVersion = some 0 ∧ a.kind = b.kind ∧ a.conversationId = b.conversationId ∧
      a.branchId = b.branchId ∧ a.sourceStartMessageId = b.sourceStartMessageId ∧
        a.sourceEndMessageId = b.sourceEndMessageId ∧ a.sourceRevision = b.sourceRevision

theorem Hides.agrees {a b : MemoryJobKeyInput} (h : a.Hides b) : a.Agrees b := by
  obtain ⟨hid, hversion, hid', hversion', hkind, hconversation, hbranch, hstart, hend, hrevision⟩ := h
  exact {
    kind := hkind
    conversationId := hconversation
    branchId := hbranch
    sourceStartMessageId := hstart
    sourceEndMessageId := hend
    profileId := by rw [hid, hid']; rfl
    profileSchemaVersion := by rw [hversion, hversion']; rfl
    sourceRevision := hrevision }

theorem Hides.ne {a b : MemoryJobKeyInput} (h : a.Hides b) : a ≠ b := by
  rintro rfl
  have hid := h.1.symm.trans h.2.2.1
  cases hid

theorem Agrees.symm {a b : MemoryJobKeyInput} (h : a.Agrees b) : b.Agrees a where
  kind := h.kind.symm
  conversationId := h.conversationId.symm
  branchId := h.branchId.symm
  sourceStartMessageId := h.sourceStartMessageId.symm
  sourceEndMessageId := h.sourceEndMessageId.symm
  profileId := h.profileId.symm
  profileSchemaVersion := h.profileSchemaVersion.symm
  sourceRevision := h.sourceRevision.symm

/-- An input that is accepted has both parts of a profile or none. -/
def Complete (input : MemoryJobKeyInput) : Prop :=
  input.profileId.isSome = input.profileSchemaVersion.isSome

/-- Agreeing inputs are equal unless one hides the other. -/
theorem Agrees.eq_or_hides {a b : MemoryJobKeyInput} (h : a.Agrees b) (ha : a.Complete) (hb : b.Complete) :
    a = b ∨ a.Hides b ∨ b.Hides a := by
  obtain ⟨kind, conversation, branch, start, stop, id, version, revision, haddr⟩ := a
  obtain ⟨kind', conversation', branch', start', stop', id', version', revision', haddr'⟩ := b
  obtain ⟨hkind, hconversation, hbranch, hstart, hstop, hid, hversion, hrevision⟩ := h
  dsimp only at hkind hconversation hbranch hstart hstop hid hversion hrevision
  subst hkind hconversation hbranch hstart hstop hrevision
  simp only [Complete] at ha hb
  match id, version, id', version' with
  | none, none, none, none => exact .inl rfl
  | some id, some version, some id', some version' =>
    rw [Option.getD_some, Option.getD_some] at hid hversion
    subst hid hversion
    exact .inl rfl
  | none, none, some id', some version' =>
    cases hid
    cases hversion
    exact .inr (.inl ⟨rfl, rfl, rfl, rfl, rfl, rfl, rfl, rfl, rfl, rfl⟩)
  | some id, some version, none, none =>
    cases hid
    cases hversion
    exact .inr (.inr ⟨rfl, rfl, rfl, rfl, rfl, rfl, rfl, rfl, rfl, rfl⟩)
  | some _, none, _, _ => cases ha
  | none, some _, _, _ => cases ha
  | _, _, some _, none => cases hb
  | _, _, none, some _ => cases hb

end MemoryJobKeyInput

/-! ## Keys -/

section
variable {sha256 : List UInt8 → Vector UInt8 32} {first second : MemoryJobKeyInput} {key key' : String}

theorem deriveMemoryJobIdempotencyKey_eq_ok (h : deriveMemoryJobIdempotencyKey sha256 first = .ok key) :
    first.Complete ∧ key = "memory-job:v1:" ++ hexEncode (sha256 first.hashedBytes).toList := by
  obtain ⟨-, h⟩ := seq_eq_ok.1 h
  obtain ⟨hcomplete, h⟩ := seq_eq_ok.1 h
  rw [rejectIf_eq_ok, not_not] at hcomplete
  cases h
  exact ⟨hcomplete, rfl⟩

/-- Keys are equal exactly for agreeing inputs. -/
theorem deriveMemoryJobIdempotencyKey_eq_iff
    (hfirst : deriveMemoryJobIdempotencyKey sha256 first = .ok key)
    (hsecond : deriveMemoryJobIdempotencyKey sha256 second = .ok key')
    (hcollision : sha256 first.hashedBytes = sha256 second.hashedBytes →
      first.hashedBytes = second.hashedBytes) : key = key' ↔ first.Agrees second := by
  obtain ⟨-, rfl⟩ := deriveMemoryJobIdempotencyKey_eq_ok hfirst
  obtain ⟨-, rfl⟩ := deriveMemoryJobIdempotencyKey_eq_ok hsecond
  rw [String.append_right_inj, ← MemoryJobKeyInput.hashedFields_eq_iff]
  constructor
  · intro h
    exact MemoryJobKeyInput.hashedBytes_inj (hcollision (Vector.toList_inj.1 (hexEncode_inj h)))
  · intro h
    rw [MemoryJobKeyInput.hashedBytes, MemoryJobKeyInput.hashedBytes, h]

/-- Equal keys mean equal inputs exactly when neither input hides the other. -/
theorem deriveMemoryJobIdempotencyKey_separates_iff
    (hfirst : deriveMemoryJobIdempotencyKey sha256 first = .ok key)
    (hsecond : deriveMemoryJobIdempotencyKey sha256 second = .ok key')
    (hcollision : sha256 first.hashedBytes = sha256 second.hashedBytes →
      first.hashedBytes = second.hashedBytes) :
    (key = key' → first = second) ↔ ¬ (first.Hides second ∨ second.Hides first) := by
  rw [deriveMemoryJobIdempotencyKey_eq_iff hfirst hsecond hcollision]
  constructor
  · rintro h (hhides | hhides)
    · exact hhides.ne (h hhides.agrees)
    · exact hhides.ne (h hhides.agrees.symm).symm
  · intro hhides hagrees
    exact (hagrees.eq_or_hides (deriveMemoryJobIdempotencyKey_eq_ok hfirst).1
      (deriveMemoryJobIdempotencyKey_eq_ok hsecond).1).resolve_right hhides

end

theorem summaryKeyInput_addressable {id : Option MemoryProfileId}
    (hid : (id.getD "").utf8ByteSize < 2 ^ 64) : ∀ text ∈ ["conversation", "branch", "m1", "m2",
      id.getD "", "canonical-digest"], text.utf8ByteSize < 2 ^ 64 := by
  simp only [List.forall_mem_cons, List.not_mem_nil, false_implies, implies_true, and_true]
  exact ⟨by decide, by decide, by decide, by decide, hid, by decide⟩

/-- The summary job of two messages under a profile. -/
def summaryKeyInput (id : Option MemoryProfileId) (version : Option UInt32)
    (hid : (id.getD "").utf8ByteSize < 2 ^ 64) : MemoryJobKeyInput where
  kind := .summary
  conversationId := "conversation"
  branchId := "branch"
  sourceStartMessageId := "m1"
  sourceEndMessageId := "m2"
  profileId := id
  profileSchemaVersion := version
  sourceRevision := "canonical-digest"
  addressable := summaryKeyInput_addressable hid

theorem profile_addressable : ((some "profile").getD "").utf8ByteSize < 2 ^ 64 := by decide

theorem noProfile_addressable : ((none : Option String).getD "").utf8ByteSize < 2 ^ 64 := by decide

theorem emptyProfile_addressable : ((some "").getD "").utf8ByteSize < 2 ^ 64 := by decide

def firstSummaryKeyInput : MemoryJobKeyInput := summaryKeyInput (some "profile") (some 1) profile_addressable

def secondSummaryKeyInput : MemoryJobKeyInput := summaryKeyInput (some "profile") (some 2) profile_addressable

def bareSummaryKeyInput : MemoryJobKeyInput := summaryKeyInput none none noProfile_addressable

def defaultSummaryKeyInput : MemoryJobKeyInput := summaryKeyInput (some "") (some 0) emptyProfile_addressable

/-- The SHA-256 digests of the two jobs, and of the job without a profile. -/
def summaryDigest (bytes : List UInt8) : Vector UInt8 32 :=
  if bytes = firstSummaryKeyInput.hashedBytes then
    #v[0x30, 0x7c, 0xfd, 0x62, 0xe1, 0xc9, 0x10, 0x3c, 0x9d, 0x79, 0xc1, 0x4e, 0x21, 0x11, 0x3c, 0xab,
    0xea, 0xfd, 0x61, 0x18, 0xa9, 0x9c, 0x44, 0x50, 0xf6, 0x06, 0x69, 0x21, 0x3e, 0xeb, 0xdd, 0x0b]
  else if bytes = secondSummaryKeyInput.hashedBytes then
    #v[0x4f, 0x47, 0x63, 0x8f, 0x95, 0xd1, 0x96, 0xfa, 0x60, 0x6e, 0x01, 0xaa, 0x66, 0xe7, 0xc9, 0x52,
    0xb7, 0xb8, 0xde, 0x60, 0x3b, 0x12, 0xef, 0xec, 0xae, 0x3f, 0xfd, 0x65, 0x65, 0x00, 0xf3, 0x0d]
  else
    #v[0x44, 0x37, 0xa6, 0xe7, 0x4c, 0x25, 0x7a, 0x6b, 0x0b, 0x66, 0x85, 0xaa, 0xe4, 0x5d, 0xf6, 0xdb,
    0x67, 0xab, 0xe3, 0x96, 0x5f, 0x8c, 0xdb, 0x72, 0xda, 0x24, 0x11, 0xce, 0x91, 0x10, 0xaa, 0xa3]

theorem summaryKeyInputs_hashedBytes : secondSummaryKeyInput.hashedBytes ≠ firstSummaryKeyInput.hashedBytes ∧
    bareSummaryKeyInput.hashedBytes ≠ firstSummaryKeyInput.hashedBytes ∧
    bareSummaryKeyInput.hashedBytes ≠ secondSummaryKeyInput.hashedBytes := by
  decide +kernel

theorem summaryDigest_first : summaryDigest firstSummaryKeyInput.hashedBytes =
    #v[0x30, 0x7c, 0xfd, 0x62, 0xe1, 0xc9, 0x10, 0x3c, 0x9d, 0x79, 0xc1, 0x4e, 0x21, 0x11, 0x3c, 0xab,
      0xea, 0xfd, 0x61, 0x18, 0xa9, 0x9c, 0x44, 0x50, 0xf6, 0x06, 0x69, 0x21, 0x3e, 0xeb, 0xdd, 0x0b] :=
  if_pos rfl

theorem summaryDigest_second : summaryDigest secondSummaryKeyInput.hashedBytes =
    #v[0x4f, 0x47, 0x63, 0x8f, 0x95, 0xd1, 0x96, 0xfa, 0x60, 0x6e, 0x01, 0xaa, 0x66, 0xe7, 0xc9, 0x52,
      0xb7, 0xb8, 0xde, 0x60, 0x3b, 0x12, 0xef, 0xec, 0xae, 0x3f, 0xfd, 0x65, 0x65, 0x00, 0xf3, 0x0d] := by
  rw [summaryDigest, if_neg summaryKeyInputs_hashedBytes.1, if_pos rfl]

theorem summaryDigest_bare : summaryDigest bareSummaryKeyInput.hashedBytes =
    #v[0x44, 0x37, 0xa6, 0xe7, 0x4c, 0x25, 0x7a, 0x6b, 0x0b, 0x66, 0x85, 0xaa, 0xe4, 0x5d, 0xf6, 0xdb,
      0x67, 0xab, 0xe3, 0x96, 0x5f, 0x8c, 0xdb, 0x72, 0xda, 0x24, 0x11, 0xce, 0x91, 0x10, 0xaa, 0xa3] := by
  rw [summaryDigest, if_neg summaryKeyInputs_hashedBytes.2.1, if_neg summaryKeyInputs_hashedBytes.2.2]

theorem firstSummaryKey : deriveMemoryJobIdempotencyKey summaryDigest firstSummaryKeyInput =
    .ok "memory-job:v1:307cfd62e1c9103c9d79c14e21113cabeafd6118a99c4450f60669213eebdd0b" := by
  rw [deriveMemoryJobIdempotencyKey, summaryDigest_first]
  decide +kernel

theorem secondSummaryKey : deriveMemoryJobIdempotencyKey summaryDigest secondSummaryKeyInput =
    .ok "memory-job:v1:4f47638f95d196fa606e01aa66e7c952b7b8de603b12efecae3ffd656500f30d" := by
  rw [deriveMemoryJobIdempotencyKey, summaryDigest_second]
  decide +kernel

theorem deriveMemoryJobIdempotencyKey_separates_versions :
    ("memory-job:v1:307cfd62e1c9103c9d79c14e21113cabeafd6118a99c4450f60669213eebdd0b" =
      "memory-job:v1:4f47638f95d196fa606e01aa66e7c952b7b8de603b12efecae3ffd656500f30d" →
        firstSummaryKeyInput = secondSummaryKeyInput) ↔
      ¬ (firstSummaryKeyInput.Hides secondSummaryKeyInput ∨
        secondSummaryKeyInput.Hides firstSummaryKeyInput) :=
  deriveMemoryJobIdempotencyKey_separates_iff firstSummaryKey secondSummaryKey (by
    rw [summaryDigest_first, summaryDigest_second]
    exact fun hdigest => absurd hdigest (by decide))

/-- A job without a profile and one with the empty profile id at version 0 share their key. -/
theorem deriveMemoryJobIdempotencyKey_hides_absence :
    ¬ ∀ (sha256 : List UInt8 → Vector UInt8 32) (first second : MemoryJobKeyInput) (key key' : String),
      deriveMemoryJobIdempotencyKey sha256 first = .ok key →
      deriveMemoryJobIdempotencyKey sha256 second = .ok key' →
      (sha256 first.hashedBytes = sha256 second.hashedBytes → first.hashedBytes = second.hashedBytes) →
      key = key' → first = second := by
  intro h
  have hbytes : bareSummaryKeyInput.hashedBytes = defaultSummaryKeyInput.hashedBytes := by decide +kernel
  have hbare : deriveMemoryJobIdempotencyKey summaryDigest bareSummaryKeyInput =
      .ok "memory-job:v1:4437a6e74c257a6b0b6685aae45df6db67abe3965f8cdb72da2411ce9110aaa3" := by
    rw [deriveMemoryJobIdempotencyKey, summaryDigest_bare]
    decide +kernel
  have hdefault : deriveMemoryJobIdempotencyKey summaryDigest defaultSummaryKeyInput =
      .ok "memory-job:v1:4437a6e74c257a6b0b6685aae45df6db67abe3965f8cdb72da2411ce9110aaa3" := by
    rw [deriveMemoryJobIdempotencyKey, ← hbytes, summaryDigest_bare]
    decide +kernel
  have heq := h summaryDigest bareSummaryKeyInput defaultSummaryKeyInput _ _ hbare hdefault (fun _ => hbytes) rfl
  have hne : bareSummaryKeyInput ≠ defaultSummaryKeyInput := by decide +kernel
  exact hne heq

end LorePia
