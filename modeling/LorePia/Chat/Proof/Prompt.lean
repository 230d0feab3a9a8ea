import LorePia.Base.Window
import LorePia.Chat.Prompt

/-!
# Planned requests

The walk over the history keeps the static messages and the selected ones within the limits (`Fits`), and stops
for one of four reasons (`Stops`). So the selected messages are the longest suffix of the spoken history that
fits, and the validator, which adds the same sizes up from the front, accepts the request.
-/

namespace LorePia

namespace PromptPlanner

open Base

/-! ## Limits -/

/-- The history without its system messages. -/
def spoken (history : List Message) : List Message := history.filter (·.role ≠ .system)

def totalBytes (messages : List Message) : Nat := (messages.map fun message => bytes message.content).sum

def totalChars (messages : List Message) : Nat := (messages.map fun message => chars message.content).sum

/-- A message within the limits of one history item. -/
def WithinItemLimits (message : Message) : Prop :=
  bytes message.content ≤ maxHistoryMessageBytes ∧ chars message.content ≤ maxHistoryMessageChars

/-- All messages together within the limits of a prompt. -/
def WithinPromptLimits (messages : List Message) : Prop :=
  totalBytes messages ≤ maxPromptBytes ∧ totalChars messages ≤ maxPromptChars

/-- `window` may follow the messages `front`. -/
structure Fits (front window : List Message) : Prop where
  count : window.length ≤ maxHistoryMessages
  items : ∀ message ∈ window, WithinItemLimits message
  total : WithinPromptLimits (front ++ window)

/-- Why the walk does not go on in front of `window`, where `older` is left of the history. -/
inductive Stops (front : List Message) : List Message → List Message → Prop
  | start {window : List Message} : Stops front [] window
  | full {older window : List Message} (h : window.length = maxHistoryMessages) : Stops front older window
  | oversized {older window : List Message} {next : Message} (h : ¬WithinItemLimits next) :
    Stops front (older ++ [next]) window
  | overLimit {older window : List Message} {next : Message}
    (h : ¬WithinPromptLimits (front ++ next :: window)) : Stops front (older ++ [next]) window

theorem totalBytes_cons (message : Message) (messages : List Message) :
    totalBytes (message :: messages) = bytes message.content + totalBytes messages := by
  simp [totalBytes]

theorem totalChars_cons (message : Message) (messages : List Message) :
    totalChars (message :: messages) = chars message.content + totalChars messages := by
  simp [totalChars]

theorem totalBytes_pair (a b : Message) : totalBytes [a, b] = bytes a.content + bytes b.content := by
  simp [totalBytes]

theorem totalChars_pair (a b : Message) : totalChars [a, b] = chars a.content + chars b.content := by
  simp [totalChars]

/-- One more message in the middle. -/
theorem totalBytes_middle (front window : List Message) (next : Message) :
    totalBytes (front ++ next :: window) = totalBytes (front ++ window) + bytes next.content := by
  simp only [totalBytes, List.map_append, List.sum_append, List.map_cons, List.sum_cons]
  omega

theorem totalChars_middle (front window : List Message) (next : Message) :
    totalChars (front ++ next :: window) = totalChars (front ++ window) + chars next.content := by
  simp only [totalChars, List.map_append, List.sum_append, List.map_cons, List.sum_cons]
  omega

theorem withinPromptLimits_middle {front window : List Message} {next : Message} :
    WithinPromptLimits (front ++ next :: window) ↔
      totalBytes (front ++ window) + bytes next.content ≤ maxPromptBytes ∧
        totalChars (front ++ window) + chars next.content ≤ maxPromptChars := by
  rw [WithinPromptLimits, totalBytes_middle, totalChars_middle]

theorem fits_tailClosed (front : List Message) : TailClosed (Fits front) := by
  intro next window h
  have htotal := withinPromptLimits_middle.1 h.total
  have hcount := h.count
  rw [List.length_cons] at hcount
  refine ⟨by omega, fun message hm => h.items message (List.mem_cons_of_mem next hm), ?_⟩
  exact ⟨by omega, by omega⟩

theorem fits_cons {front window : List Message} {next : Message} (h : Fits front window)
    (hcount : window.length < maxHistoryMessages) (hitem : WithinItemLimits next)
    (htotal : WithinPromptLimits (front ++ next :: window)) : Fits front (next :: window) := by
  refine ⟨by rw [List.length_cons]; omega, fun message hm => ?_, htotal⟩
  rcases List.mem_cons.1 hm with rfl | hm
  · exact hitem
  · exact h.items message hm

/-- **A window in front of which the walk stops is the longest one.** -/
theorem longestSuffix_of_stops {front older window : List Message} (hfits : Fits front window)
    (hstops : Stops front older window) : LongestSuffix (Fits front) (older ++ window) window := by
  refine longestSuffix_of_blocked (fits_tailClosed front) hfits fun earlier next hsplit hnext => ?_
  cases hstops with
  | start => exact List.append_ne_nil_of_right_ne_nil earlier (List.cons_ne_nil next []) hsplit.symm
  | full h =>
    have hcount := hnext.count
    rw [List.length_cons] at hcount
    omega
  | oversized h =>
    obtain ⟨-, heq⟩ := List.append_inj' hsplit rfl
    cases heq
    exact h (hnext.items next List.mem_cons_self)
  | overLimit h =>
    obtain ⟨-, heq⟩ := List.append_inj' hsplit rfl
    cases heq
    exact h hnext.total

/-! ## The walk -/

theorem breakOrFail_eq_ok {selected result : List Message} {error : CoreError} :
    breakOrFail selected error = .ok result ↔ selected ≠ [] ∧ result = selected := by
  unfold breakOrFail
  split
  · rename_i h
    simp [h]
  · rename_i h
    simp [h, eq_comm]

/-- What one turn of the walk does: it stops, or it takes the message. -/
theorem selectHistory_cons {front selected older result : List Message} {message : Message}
    (hfits : Fits front selected)
    (h : selectHistory (message :: older) selected (totalBytes (front ++ selected))
      (totalChars (front ++ selected)) = .ok result) :
    (selected ≠ [] ∧ result = selected ∧ Stops front (older.reverse ++ [message]) selected) ∨
      (Fits front (message :: selected) ∧
        selectHistory older (message :: selected) (totalBytes (front ++ message :: selected))
          (totalChars (front ++ message :: selected)) = .ok result) := by
  rw [selectHistory] at h
  split at h
  · rename_i hfull
    refine .inl ⟨fun hnil => ?_, (Except.ok.inj h).symm, .full hfull⟩
    rw [hnil] at hfull
    cases hfull
  · rename_i hcount
    have hlt : selected.length < maxHistoryMessages := Nat.lt_of_le_of_ne hfits.count hcount
    split at h
    · rename_i hover
      obtain ⟨hne, rfl⟩ := breakOrFail_eq_ok.1 h
      exact .inl ⟨hne, rfl, .oversized fun hitem => by
        rcases hover with hover | hover
        · exact absurd hitem.1 (Nat.not_le.2 hover)
        · exact absurd hitem.2 (Nat.not_le.2 hover)⟩
    · rename_i hitem
      have hitem : WithinItemLimits message := by
        rw [not_or, Nat.not_lt, Nat.not_lt] at hitem
        exact hitem
      have hmiddle : WithinPromptLimits (front ++ message :: selected) ↔
          totalBytes (front ++ selected) + bytes message.content ≤ maxPromptBytes ∧
            totalChars (front ++ selected) + chars message.content ≤ maxPromptChars := withinPromptLimits_middle
      split at h
      · rename_i nextBytes nextChars hbytes hchars
        obtain ⟨-, rfl⟩ := checkedAdd_eq_some.1 hbytes
        obtain ⟨-, rfl⟩ := checkedAdd_eq_some.1 hchars
        split at h
        · rename_i hover
          obtain ⟨hne, rfl⟩ := breakOrFail_eq_ok.1 h
          exact .inl ⟨hne, rfl, .overLimit fun htotal => by
            have := hmiddle.1 htotal
            omega⟩
        · rename_i hunder
          have htotal : WithinPromptLimits (front ++ message :: selected) :=
            hmiddle.2 ⟨by omega, by omega⟩
          rw [totalBytes_middle, totalChars_middle]
          exact .inr ⟨fits_cons hfits hlt hitem htotal, h⟩
      · -- a sum that overflows is above the limit
        rename_i hnone
        obtain ⟨hne, rfl⟩ := breakOrFail_eq_ok.1 h
        refine .inl ⟨hne, rfl, .overLimit fun htotal => ?_⟩
        have hle := hmiddle.1 htotal
        have hmax : maxPromptBytes ≤ usizeMax ∧ maxPromptChars ≤ usizeMax := by decide
        exact hnone _ _ (checkedAdd_eq_some.2 ⟨by omega, rfl⟩) (checkedAdd_eq_some.2 ⟨by omega, rfl⟩)

/-- **The walk.** By induction on what is left of the history, newest message first. -/
theorem selectHistory_spec {front : List Message} : ∀ {newest selected result : List Message},
    Fits front selected →
    selectHistory newest selected (totalBytes (front ++ selected)) (totalChars (front ++ selected)) =
      .ok result →
    ∃ taken rest, newest = taken ++ rest ∧ result = taken.reverse ++ selected ∧ Fits front result ∧
      Stops front rest.reverse result ∧ (newest ≠ [] → result ≠ [])
  | [], selected, result, hfits, h => by
    rw [selectHistory] at h
    cases h
    exact ⟨[], [], rfl, rfl, hfits, .start, fun h => absurd rfl h⟩
  | message :: older, selected, result, hfits, h => by
    rcases selectHistory_cons hfits h with ⟨hne, rfl, hstops⟩ | ⟨hfits, h⟩
    · refine ⟨[], message :: older, rfl, rfl, hfits, ?_, fun _ => hne⟩
      rw [List.reverse_cons]
      exact hstops
    · obtain ⟨taken, rest, rfl, rfl, hfits, hstops, -⟩ := selectHistory_spec hfits h
      refine ⟨message :: taken, rest, rfl, ?_, ?_, ?_, fun _ => ?_⟩
      · simp
      · exact hfits
      · exact hstops
      · exact List.append_ne_nil_of_right_ne_nil _ (List.cons_ne_nil message selected)

/-! ## The inputs of a plan -/

theorem validateHistoryConversation_eq_ok {history : List Message} {conversationId : ConversationId} {u : Unit}
    (h : validateHistoryConversation history conversationId = .ok u) :
    ∀ message ∈ history, message.conversationId = conversationId := by
  obtain ⟨-, h⟩ := seq_eq_ok.1 h
  rw [rejectIf_eq_ok] at h
  intro message hm
  by_contra hne
  exact h (List.any_eq_true.2 ⟨message, hm, decide_eq_true hne⟩)

/-- The static messages are the policy of the mode and the user's profile message, and their totals are theirs. -/
theorem buildStaticPrompt_eq_ok {fresh : Fresh} {character : Character} {conversationId : ConversationId}
    {mode : ConversationMode} {prompt : StaticPrompt}
    (h : buildStaticPrompt fresh character conversationId mode = .ok prompt) :
    prompt.systemMessage =
        staticMessage conversationId fresh.systemId fresh.systemTime .system (systemContent mode) ∧
      prompt.profileMessage =
        staticMessage conversationId fresh.profileId fresh.profileTime .user (profileContent character) ∧
      prompt.totalBytes = totalBytes [prompt.systemMessage, prompt.profileMessage] ∧
      prompt.totalChars = totalChars [prompt.systemMessage, prompt.profileMessage] ∧
      WithinPromptLimits [prompt.systemMessage, prompt.profileMessage] := by
  obtain ⟨-, h⟩ := seq_eq_ok.1 h
  obtain ⟨byteCount, hbytes, h⟩ := bind_eq_ok.1 h
  obtain ⟨charCount, hchars, h⟩ := bind_eq_ok.1 h
  obtain ⟨hlimit, h⟩ := seq_eq_ok.1 h
  rw [rejectIf_eq_ok] at hlimit
  obtain ⟨-, hbytes⟩ := checkedAdd_eq_some.1 (okOr_eq_ok.1 hbytes)
  obtain ⟨-, hchars⟩ := checkedAdd_eq_some.1 (okOr_eq_ok.1 hchars)
  have hprompt := pure_eq_ok.1 h
  subst hprompt
  refine ⟨rfl, rfl, ?_, ?_, ?_⟩
  · rw [totalBytes_pair]
    exact hbytes
  · rw [totalChars_pair]
    exact hchars
  · rw [not_or, Nat.not_lt, Nat.not_lt, hbytes, hchars] at hlimit
    rw [WithinPromptLimits, totalBytes_pair, totalChars_pair]
    exact hlimit

theorem clamp_cases (low high value : F64) :
    clamp low high value = low ∨ clamp low high value = high ∨ clamp low high value = value := by
  unfold clamp
  by_cases hlow : value.lt low = true
  · rw [if_pos hlow]
    by_cases hhigh : high.lt low = true
    · exact .inr (.inl (if_pos hhigh))
    · exact .inl (if_neg hhigh)
  · rw [if_neg hlow]
    by_cases hhigh : high.lt value = true
    · exact .inr (.inl (if_pos hhigh))
    · exact .inr (.inr (if_neg hhigh))

theorem isFinite_clamp {low high value : F64} (hlow : low.isFinite = true) (hhigh : high.isFinite = true)
    (h : value.isFinite = true) : (clamp low high value).isFinite = true := by
  rcases clamp_cases low high value with heq | heq | heq
  · rwa [heq]
  · rwa [heq]
  · rwa [heq]

/-- The clamped temperature passes the check that the given one passed. -/
theorem validateRequestControls_clamp {model : String} {temperature : F64} {maxOutputTokens : Option UInt32}
    {u : Unit} (h : validateRequestControls model (some temperature) maxOutputTokens = .ok u) :
    validateRequestControls model (some (clamp zero two temperature)) maxOutputTokens = .ok () := by
  obtain ⟨hmodel, h⟩ := seq_eq_ok.1 h
  obtain ⟨htemperature, htokens⟩ := seq_eq_ok.1 h
  refine seq_eq_ok.2 ⟨hmodel, seq_eq_ok.2 ⟨?_, htokens⟩⟩
  rw [rejectIf_eq_ok] at htemperature ⊢
  rw [Option.any_some, Bool.not_eq_true', Bool.not_eq_false] at htemperature ⊢
  have hzero : zero.isFinite = true := by decide
  have htwo : two.isFinite = true := by decide
  exact isFinite_clamp hzero htwo htemperature

/-! ## The validator -/

theorem addContent_eq_ok {totals totals' : Nat × Nat} {content : String} :
    addContent totals content = .ok totals' ↔
      totals' = (totals.1 + bytes content, totals.2 + chars content) ∧
        totals'.1 ≤ maxPromptBytes ∧ totals'.2 ≤ maxPromptChars := by
  have hmax : maxPromptBytes ≤ usizeMax ∧ maxPromptChars ≤ usizeMax := by decide
  unfold addContent
  rw [bind_eq_ok]
  constructor
  · rintro ⟨byteCount, hbytes, h⟩
    obtain ⟨charCount, hchars, h⟩ := bind_eq_ok.1 h
    obtain ⟨hlimit, h⟩ := seq_eq_ok.1 h
    rw [rejectIf_eq_ok] at hlimit
    obtain ⟨-, rfl⟩ := checkedAdd_eq_some.1 (okOr_eq_ok.1 hbytes)
    obtain ⟨-, rfl⟩ := checkedAdd_eq_some.1 (okOr_eq_ok.1 hchars)
    cases h
    exact ⟨rfl, by dsimp only; omega⟩
  · rintro ⟨rfl, hle⟩
    dsimp only at hle
    refine ⟨_, okOr_eq_ok.2 (checkedAdd_eq_some.2 ⟨by omega, rfl⟩), bind_eq_ok.2 ?_⟩
    refine ⟨_, okOr_eq_ok.2 (checkedAdd_eq_some.2 ⟨by omega, rfl⟩), seq_eq_ok.2 ⟨?_, rfl⟩⟩
    rw [rejectIf_eq_ok]
    omega

/-- The messages behind the first one pass when they are of the conversation, not system messages, and within
the limits together with what stands before them. -/
theorem validateMessages_tail {conversationId : ConversationId} : ∀ {messages : List Message} {index : Nat}
    {sawSystem : Bool} {totals : Nat × Nat},
    (∀ message ∈ messages, message.conversationId = conversationId ∧ message.role ≠ .system) →
    totals.1 + totalBytes messages ≤ maxPromptBytes → totals.2 + totalChars messages ≤ maxPromptChars →
    validateMessages conversationId index sawSystem totals messages = .ok ()
  | [], _, _, _, _, _, _ => rfl
  | message :: rest, index, sawSystem, totals, hmessages, hbytes, hchars => by
    obtain ⟨hid, hrole⟩ := hmessages message List.mem_cons_self
    rw [totalBytes_cons] at hbytes
    rw [totalChars_cons] at hchars
    refine seq_eq_ok.2 ⟨rejectIf_eq_ok.2 fun hne => hne hid, seq_eq_ok.2 ⟨?_, bind_eq_ok.2 ?_⟩⟩
    · exact rejectIf_eq_ok.2 fun hsystem => hrole hsystem.1
    · refine ⟨_, addContent_eq_ok.2 ⟨rfl, ?_, ?_⟩, validateMessages_tail ?_ ?_ ?_⟩
      · dsimp only
        omega
      · dsimp only
        omega
      · exact fun message hm => hmessages message (List.mem_cons_of_mem _ hm)
      · dsimp only
        omega
      · dsimp only
        omega

/-- A system message, and behind it others of the same conversation within the limits. -/
theorem validateMessages_system {conversationId : ConversationId} {system : Message} {rest : List Message}
    (hid : system.conversationId = conversationId)
    (hrest : ∀ message ∈ rest, message.conversationId = conversationId ∧ message.role ≠ .system)
    (hlimits : WithinPromptLimits (system :: rest)) :
    validateMessages conversationId 0 false (0, 0) (system :: rest) = .ok () := by
  obtain ⟨hbytes, hchars⟩ := hlimits
  rw [totalBytes_cons] at hbytes
  rw [totalChars_cons] at hchars
  refine seq_eq_ok.2 ⟨rejectIf_eq_ok.2 fun hne => hne hid, seq_eq_ok.2 ⟨?_, bind_eq_ok.2 ?_⟩⟩
  · refine rejectIf_eq_ok.2 fun hsystem => ?_
    simp at hsystem
  · refine ⟨_, addContent_eq_ok.2 ⟨rfl, ?_, ?_⟩, validateMessages_tail hrest ?_ ?_⟩
    · dsimp only
      omega
    · dsimp only
      omega
    · dsimp only
      omega
    · dsimp only
      omega

/-! ## Plans -/

/-- The window that the walk over a history selects. -/
theorem selectHistory_history {front history selected : List Message} (hfront : WithinPromptLimits front)
    (h : selectHistory (history.reverse.filter (·.role ≠ .system)) [] (totalBytes front) (totalChars front) =
      .ok selected) :
    Fits front selected ∧ (∃ older, spoken history = older ++ selected ∧ Stops front older selected) ∧
      (spoken history).getLast? = selected.getLast? := by
  have hnil : Fits front [] := ⟨Nat.zero_le _, fun _ hm => absurd hm List.not_mem_nil, by
    rw [List.append_nil]
    exact hfront⟩
  have happend : front ++ [] = front := List.append_nil front
  rw [← happend] at h
  obtain ⟨taken, rest, hsplit, rfl, hfits, hstops, hne⟩ := selectHistory_spec hnil h
  rw [List.append_nil] at hfits hstops hne ⊢
  have hspoken : spoken history = rest.reverse ++ taken.reverse := by
    rw [← List.reverse_append, ← hsplit, List.filter_reverse, List.reverse_reverse, spoken]
  refine ⟨hfits, ⟨rest.reverse, hspoken, hstops⟩, ?_⟩
  rw [hspoken]
  cases taken with
  | nil =>
    have hrest : rest = [] := by
      by_contra hrest
      exact hne (by rw [hsplit]; exact hrest) rfl
    rw [hrest]
    rfl
  | cons newest taken =>
    rw [List.reverse_cons, ← List.append_assoc, List.getLast?_concat, List.getLast?_concat]

/-- **An accepted plan**: the request passes the validator. Its messages are the policy of the mode, which is the
only system message, the profile, and the longest suffix of the spoken history that fits behind them: it holds
the newest message, and it ends at the start of the history, at 126 messages, or in front of a message that is
too large or breaks the limits of the prompt. -/
theorem planWithMode_window {fresh : Fresh} {character : Character} {conversationId : ConversationId}
    {mode : ConversationMode} {history : List Message} {model : String} {temperature : F64}
    {maxOutputTokens : Option UInt32} {request : GenerationRequest}
    (h : planWithMode fresh character conversationId mode history model temperature maxOutputTokens =
      .ok request) :
    (∀ lib, validateGenerationRequest lib request = .ok ()) ∧
      ∃ system profile older window, request.messages = system :: profile :: window ∧
        system.role = .system ∧ system.content = systemContent mode ∧
        (∀ message ∈ profile :: window, message.role ≠ .system) ∧
        spoken history = older ++ window ∧ (spoken history).getLast? = window.getLast? ∧
        Stops [system, profile] older window ∧
        LongestSuffix (Fits [system, profile]) (spoken history) window := by
  obtain ⟨hcontrols, h⟩ := seq_eq_ok.1 h
  obtain ⟨hhistory, h⟩ := seq_eq_ok.1 h
  obtain ⟨prompt, hprompt, h⟩ := bind_eq_ok.1 h
  obtain ⟨window, hwindow, h⟩ := bind_eq_ok.1 h
  have hrequest := pure_eq_ok.1 h
  subst hrequest
  obtain ⟨hsystem, hprofile, hbytes, hchars, hlimits⟩ := buildStaticPrompt_eq_ok hprompt
  rw [hbytes, hchars] at hwindow
  obtain ⟨hfits, ⟨older, hspoken, hstops⟩, hnewest⟩ := selectHistory_history hlimits hwindow
  -- the messages behind the policy are of the conversation, and none is a system message
  have hrest : ∀ message ∈ prompt.profileMessage :: window,
      message.conversationId = conversationId ∧ message.role ≠ .system := by
    intro message hm
    rcases List.mem_cons.1 hm with rfl | hm
    · rw [hprofile]
      exact ⟨rfl, by simp [staticMessage]⟩
    · have hmem : message ∈ spoken history := by
        rw [hspoken]
        exact List.mem_append_right older hm
      obtain ⟨hmem, hrole⟩ := List.mem_filter.1 hmem
      exact ⟨validateHistoryConversation_eq_ok hhistory message hmem, of_decide_eq_true hrole⟩
  refine ⟨fun lib => ?_, prompt.systemMessage, prompt.profileMessage, older, window, rfl, ?_, ?_, ?_, hspoken,
    hnewest, hstops, ?_⟩
  · refine seq_eq_ok.2 ⟨validateRequestControls_clamp hcontrols, seq_eq_ok.2 ⟨rejectIf_eq_ok.2 ?_, ?_⟩⟩
    · have hcount := hfits.count
      simp only [List.length_cons, maxHistoryMessages] at hcount ⊢
      have hmax : 2 ≤ maxPromptMessages := by decide
      omega
    · exact validateMessages_system (by rw [hsystem]; rfl) hrest hfits.total
  · rw [hsystem]
    rfl
  · rw [hsystem]
    rfl
  · exact fun message hm => (hrest message hm).2
  · rw [hspoken]
    exact longestSuffix_of_stops hfits hstops

/-! ## Plans of a whole history -/

theorem totalChars_le_totalBytes (messages : List Message) : totalChars messages ≤ totalBytes messages := by
  induction messages with
  | nil => exact Nat.le_refl _
  | cons message messages ih =>
    have hlength := length_le_utf8ByteSize message.content
    rw [totalChars_cons, totalBytes_cons]
    unfold chars bytes
    omega

/-- A walk over messages that all fit takes all of them. -/
theorem selectHistory_of_fits {front : List Message} : ∀ {newest selected : List Message},
    Fits front (newest.reverse ++ selected) →
    selectHistory newest selected (totalBytes (front ++ selected)) (totalChars (front ++ selected)) =
      .ok (newest.reverse ++ selected)
  | [], selected, _ => by rw [selectHistory]; rfl
  | message :: older, selected, hfits => by
    rw [List.reverse_cons, List.append_assoc, List.singleton_append] at hfits ⊢
    have hnext : Fits front (message :: selected) :=
      (fits_tailClosed front).of_suffix (List.suffix_append older.reverse _) hfits
    have hmax : maxPromptBytes ≤ usizeMax ∧ maxPromptChars ≤ usizeMax := by decide
    have hcount := hnext.count
    have hitem := hnext.items message List.mem_cons_self
    have htotal := withinPromptLimits_middle.1 hnext.total
    rw [List.length_cons] at hcount
    rw [selectHistory, if_neg (by omega), if_neg (by rw [not_or]; exact ⟨Nat.not_lt.2 hitem.1, Nat.not_lt.2 hitem.2⟩),
      checkedAdd_eq_some.2 ⟨htotal.1.trans hmax.1, rfl⟩, checkedAdd_eq_some.2 ⟨htotal.2.trans hmax.2, rfl⟩]
    dsimp only
    rw [if_neg (by omega), ← totalBytes_middle, ← totalChars_middle]
    exact selectHistory_of_fits hfits

/-- The two static messages. -/
def staticMessages (fresh : Fresh) (character : Character) (conversationId : ConversationId)
    (mode : ConversationMode) : List Message :=
  [staticMessage conversationId fresh.systemId fresh.systemTime .system (systemContent mode),
    staticMessage conversationId fresh.profileId fresh.profileTime .user (profileContent character)]

theorem buildStaticPrompt_of_limits {fresh : Fresh} {character : Character} {conversationId : ConversationId}
    {mode : ConversationMode} (hprofile : validateCharacterProfileInput character = .ok ())
    (hlimits : WithinPromptLimits (staticMessages fresh character conversationId mode)) :
    ∃ prompt, buildStaticPrompt fresh character conversationId mode = .ok prompt := by
  have hmax : maxPromptBytes ≤ usizeMax ∧ maxPromptChars ≤ usizeMax := by decide
  have hbytes : bytes (systemContent mode) + bytes (profileContent character) ≤ maxPromptBytes := by
    have hle := hlimits.1
    rw [staticMessages, totalBytes_pair] at hle
    exact hle
  have hchars : chars (systemContent mode) + chars (profileContent character) ≤ maxPromptChars := by
    have hle := hlimits.2
    rw [staticMessages, totalChars_pair] at hle
    exact hle
  have hb := checkedAdd_eq_some.2 ⟨hbytes.trans hmax.1, rfl⟩
  have hc := checkedAdd_eq_some.2 ⟨hchars.trans hmax.2, rfl⟩
  refine ⟨⟨staticMessage conversationId fresh.systemId fresh.systemTime .system (systemContent mode),
    staticMessage conversationId fresh.profileId fresh.profileTime .user (profileContent character),
    bytes (systemContent mode) + bytes (profileContent character),
    chars (systemContent mode) + chars (profileContent character)⟩, seq_eq_ok.2 ⟨hprofile, ?_⟩⟩
  refine bind_eq_ok.2 ⟨_, okOr_eq_ok.2 hb, bind_eq_ok.2 ⟨_, okOr_eq_ok.2 hc, seq_eq_ok.2 ⟨?_, rfl⟩⟩⟩
  rw [rejectIf_eq_ok, not_or, Nat.not_lt, Nat.not_lt]
  exact ⟨hbytes, hchars⟩

/-- **A history that fits is sent whole.** -/
theorem planWithMode_of_fits {fresh : Fresh} {character : Character} {conversationId : ConversationId}
    {mode : ConversationMode} {history : List Message} {model : String} {temperature : F64}
    {maxOutputTokens : Option UInt32}
    (hcontrols : validateRequestControls model (some temperature) maxOutputTokens = .ok ())
    (hhistory : validateHistoryConversation history conversationId = .ok ())
    (hprofile : validateCharacterProfileInput character = .ok ())
    (hfits : Fits (staticMessages fresh character conversationId mode) (spoken history)) :
    ∃ request, planWithMode fresh character conversationId mode history model temperature maxOutputTokens =
        .ok request ∧
      request.messages = staticMessages fresh character conversationId mode ++ spoken history := by
  have hlimits : WithinPromptLimits (staticMessages fresh character conversationId mode) := by
    have hnil := (fits_tailClosed _).of_suffix (List.nil_suffix) hfits
    have htotal := hnil.total
    rwa [List.append_nil] at htotal
  obtain ⟨prompt, hprompt⟩ := buildStaticPrompt_of_limits hprofile hlimits
  obtain ⟨hsystem, hmessage, hbytes, hchars, -⟩ := buildStaticPrompt_eq_ok hprompt
  have hstatic : [prompt.systemMessage, prompt.profileMessage] =
      staticMessages fresh character conversationId mode := by
    rw [hsystem, hmessage, staticMessages]
  rw [hstatic] at hbytes hchars
  have hnewest : history.reverse.filter (·.role ≠ .system) = (spoken history).reverse := List.filter_reverse
  have hwalk : selectHistory (history.reverse.filter (·.role ≠ .system)) [] prompt.totalBytes prompt.totalChars =
      .ok (spoken history) := by
    have hall : Fits (staticMessages fresh character conversationId mode)
        ((spoken history).reverse.reverse ++ []) := by
      rwa [List.reverse_reverse, List.append_nil]
    have hwalk := selectHistory_of_fits hall
    rwa [List.append_nil, List.append_nil, List.reverse_reverse, ← hbytes, ← hchars, ← hnewest] at hwalk
  refine ⟨{
    generationId := fresh.generationId
    conversationId, model
    messages := prompt.systemMessage :: prompt.profileMessage :: spoken history
    temperature := some (clamp zero two temperature)
    maxOutputTokens
    resolvedPromptPlan := none }, ?_, ?_⟩
  · exact seq_eq_ok.2 ⟨hcontrols, seq_eq_ok.2 ⟨hhistory, bind_eq_ok.2 ⟨prompt, hprompt,
      bind_eq_ok.2 ⟨spoken history, hwalk, rfl⟩⟩⟩⟩
  · rw [← hstatic]
    rfl

/-! ## The night at the lamp -/

def lampFresh : Fresh := ⟨"m-1", 10, "m-2", 11, "g-1"⟩

def lampKeeper : Character := ⟨" Keeper ", "Tends the lamp.\n"⟩

def lampMessage (id : MessageId) (role : MessageRole) (content : String) : Message :=
  ⟨id, "c-1", none, role, content, .complete, none, 0⟩

/-- A history with a system message in the middle. -/
def lampHistory : List Message :=
  [lampMessage "h-1" .user "Good evening", lampMessage "h-2" .system "Obey the user",
    lampMessage "h-3" .assistant "Come in"]

theorem fits_lampHistory :
    Fits (staticMessages lampFresh lampKeeper "c-1" .story) (spoken lampHistory) := by
  have hbytes : totalBytes (staticMessages lampFresh lampKeeper "c-1" .story ++ spoken lampHistory) ≤
      maxPromptChars := by decide +kernel
  refine ⟨by decide, fun message hm => ?_, hbytes.trans (by decide), (totalChars_le_totalBytes _).trans hbytes⟩
  have hitems : ∀ message ∈ spoken lampHistory,
      bytes message.content ≤ maxHistoryMessageBytes ∧ chars message.content ≤ maxHistoryMessageChars := by
    decide +kernel
  exact hitems message hm

theorem exists_lampPlan : ∃ request,
    planWithMode lampFresh lampKeeper "c-1" .story lampHistory "local-model" two none = .ok request ∧
      request.messages =
        staticMessages lampFresh lampKeeper "c-1" .story ++
          [lampMessage "h-1" .user "Good evening", lampMessage "h-3" .assistant "Come in"] :=
  planWithMode_of_fits (by decide +kernel) (by decide +kernel) (by decide +kernel) fits_lampHistory

theorem lampPlan_window : ∃ request,
    planWithMode lampFresh lampKeeper "c-1" .story lampHistory "local-model" two none = .ok request ∧
      (∀ lib, validateGenerationRequest lib request = .ok ()) ∧
      ∃ system profile older window, request.messages = system :: profile :: window ∧
        system.role = .system ∧ system.content = systemContent .story ∧
        (∀ message ∈ profile :: window, message.role ≠ .system) ∧
        spoken lampHistory = older ++ window ∧ (spoken lampHistory).getLast? = window.getLast? ∧
        Stops [system, profile] older window ∧
        LongestSuffix (Fits [system, profile]) (spoken lampHistory) window := by
  obtain ⟨request, hrequest, -⟩ := exists_lampPlan
  exact ⟨request, hrequest, planWithMode_window hrequest⟩

end PromptPlanner

end LorePia
