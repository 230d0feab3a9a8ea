import LorePia.Base.Stateful

/-!
# Framing of a stream that arrives in chunks

A `Framing` cuts the first frame off a buffer and bounds its size. It is open-ended: a frame found before
the end of the stream is found in every continuation (`next_append`), and pending bytes that are refused
belong to a frame that is refused (`overflow`). `consume` feeds chunk after chunk and hands each frame to a
handler, which may fail or stop; `finish` frames a whole stream at once. They agree (`consume_eq`), so the
frames, their order and the verdict do not depend on the chunks. `finish_recording` accounts for every byte.
-/

namespace Base

variable {α σ ε : Type}

/-- What a handler asks for after a frame. -/
inductive FrameAction
  | continue
  | done
deriving DecidableEq

/-- A cutter of frames with its size limits; the flag tells whether the stream has ended. -/
structure Framing (α : Type) where
  next : Bool → List α → Option (List α × List α × List α)
  fits : List α → Bool
  pendingFits : Bool → List α → Bool
  IsSeparator : List α → Prop
  next_eq : ∀ {eof b frame separator rest}, next eof b = some (frame, separator, rest) →
    b = frame ++ separator ++ rest ∧ IsSeparator separator
  ne_nil : ∀ {separator}, IsSeparator separator → separator ≠ []
  next_append : ∀ {b frame separator rest}, next false b = some (frame, separator, rest) →
    ∀ eof x, next eof (b ++ x) = some (frame, separator, rest ++ x)
  overflow : ∀ {b}, next false b = none → pendingFits false b = false → ∀ x,
    (∀ frame separator rest, next true (b ++ x) = some (frame, separator, rest) → fits frame = false) ∧
      (next true (b ++ x) = none → pendingFits true (b ++ x) = false)

namespace Framing

theorem next_length (F : Framing α) {eof : Bool} {b frame separator rest : List α}
    (h : F.next eof b = some (frame, separator, rest)) : rest.length < b.length := by
  obtain ⟨rfl, hseparator⟩ := F.next_eq h
  have := List.length_pos_iff.2 (F.ne_nil hseparator)
  simp only [List.length_append]
  omega

section
variable (F : Framing α) (tooLarge : ε) (process : List α → Stateful σ ε FrameAction)

/-- Hand over the frames of a buffer; `none` when the handler is done, else what is left. -/
def drain (eof : Bool) (b : List α) : Stateful σ ε (Option (List α)) :=
  match _h : F.next eof b with
  | none => pure (some b)
  | some (frame, _, rest) => do
    Stateful.lift (rejectIf (F.fits frame = false) tooLarge)
    match ← process frame with
    | .done => pure none
    | .continue => drain eof rest
termination_by b.length
decreasing_by exact F.next_length _h

/-- Continue with what is pending, unless the handler is done. -/
def andPending (k : List α → Stateful σ ε (Option (List α))) :
    Option (List α) → Stateful σ ε (Option (List α))
  | none => pure none
  | some pending => k pending

/-- Refuse pending bytes that do not fit. -/
def checkPending (eof : Bool) (pending : List α) : Stateful σ ε Unit :=
  Stateful.lift (rejectIf (F.pendingFits eof pending = false) tooLarge)

/-- The rest of a stream at its end. -/
def finish (b : List α) : Stateful σ ε (Option (List α)) :=
  F.drain tooLarge process true b >>= andPending fun leftover => do
    F.checkPending tooLarge true leftover
    pure (some leftover)

/-- The rest of a stream in chunks. -/
def consume : List α → List (List α) → Stateful σ ε (Option (List α))
  | pending, [] => F.finish tooLarge process pending
  | pending, chunk :: chunks =>
    F.drain tooLarge process false (pending ++ chunk) >>= andPending fun pending => do
      F.checkPending tooLarge false pending
      consume pending chunks

/-- A handler that also writes down what it is given. -/
def recording (frame : List α) : Stateful (σ × List (List α)) ε FrameAction := fun s =>
  ((process frame s.1).1, (process frame s.1).2, s.2 ++ [frame])

end

variable {F : Framing α} {tooLarge : ε} {process : List α → Stateful σ ε FrameAction}

theorem drain_none {eof : Bool} {b : List α} (h : F.next eof b = none) :
    F.drain tooLarge process eof b = pure (some b) := by
  rw [drain]
  split
  · rfl
  · rename_i hsome
    rw [h] at hsome
    cases hsome

theorem drain_some {eof : Bool} {b frame separator rest : List α}
    (h : F.next eof b = some (frame, separator, rest)) :
    F.drain tooLarge process eof b = (do
      Stateful.lift (rejectIf (F.fits frame = false) tooLarge)
      match ← process frame with
      | .done => pure none
      | .continue => F.drain tooLarge process eof rest) := by
  rw [drain]
  split
  · rename_i hnone
    rw [h] at hnone
    cases hnone
  · rename_i hsome
    rw [h] at hsome
    cases hsome
    rfl

/-- What is left after a drain holds no frame, so only such pending bytes matter to what follows. -/
theorem drain_bind_congr {eof : Bool} {k k' : List α → Stateful σ ε (Option (List α))}
    (hk : ∀ pending, F.next eof pending = none → k pending = k' pending) (b : List α) :
    (F.drain tooLarge process eof b >>= andPending k) =
      F.drain tooLarge process eof b >>= andPending k' := by
  induction hlen : b.length using Nat.strongRecOn generalizing b with
  | _ n ih =>
    cases hnext : F.next eof b with
    | none =>
      rw [drain_none hnext, pure_bind, pure_bind]
      exact hk b hnext
    | some found =>
      obtain ⟨frame, separator, rest⟩ := found
      rw [drain_some hnext]
      simp only [bind_assoc]
      refine bind_congr fun _ => bind_congr fun action => ?_
      cases action with
      | done => rfl
      | «continue» => exact ih _ (hlen ▸ F.next_length hnext) rest rfl

/-- **One more piece of the stream**: framing the whole is framing its first part and going on with what
is pending. -/
theorem finish_append (b x : List α) :
    F.finish tooLarge process (b ++ x) =
      F.drain tooLarge process false b >>= andPending fun pending =>
        F.finish tooLarge process (pending ++ x) := by
  induction hlen : b.length using Nat.strongRecOn generalizing b with
  | _ n ih =>
    cases hnext : F.next false b with
    | none => rw [drain_none hnext, pure_bind, andPending]
    | some found =>
      obtain ⟨frame, separator, rest⟩ := found
      rw [drain_some hnext, finish, drain_some (F.next_append hnext true x)]
      simp only [bind_assoc]
      refine bind_congr fun _ => bind_congr fun action => ?_
      cases action with
      | done => rfl
      | «continue» => exact ih _ (hlen ▸ F.next_length hnext) rest rfl

/-- Refused pending bytes are refused in every continuation. -/
theorem finish_overflow {b : List α} (hnext : F.next false b = none)
    (hpending : F.pendingFits false b = false) (x : List α) :
    F.finish tooLarge process (b ++ x) = Stateful.lift (.error tooLarge) := by
  obtain ⟨hframe, hleftover⟩ := F.overflow hnext hpending x
  unfold finish
  cases hfinal : F.next true (b ++ x) with
  | none =>
    rw [drain_none hfinal, pure_bind, andPending, checkPending, rejectIf, if_pos (hleftover hfinal)]
    rfl
  | some found =>
    obtain ⟨frame, separator, rest⟩ := found
    simp [drain_some hfinal, rejectIf, hframe _ _ _ hfinal]

/-- **The chunks do not matter.** -/
theorem consume_eq (pending : List α) (chunks : List (List α)) :
    F.consume tooLarge process pending chunks = F.finish tooLarge process (pending ++ chunks.flatten) := by
  induction chunks generalizing pending with
  | nil => rw [consume, List.flatten_nil, List.append_nil]
  | cons chunk chunks ih =>
    rw [consume, List.flatten_cons, ← List.append_assoc, finish_append]
    refine drain_bind_congr (fun rest hrest => ?_) _
    unfold checkPending
    cases hfits : F.pendingFits false rest with
    | true => simpa [rejectIf] using ih rest
    | false => simpa [rejectIf] using (finish_overflow hrest hfits _).symm

/-! ## Every byte is accounted for -/

/-- The frames with their separators. -/
def joined (frames : List (List α × List α)) : List α := frames.flatMap fun f => f.1 ++ f.2

theorem drain_recording {eof : Bool} (b : List α) {s : σ} {seen : List (List α)}
    {result : Except ε (Option (List α))} {t : σ × List (List α)}
    (h : (F.drain tooLarge (recording process) eof b).run (s, seen) = (result, t)) :
    ∃ frames rest, b = joined frames ++ rest ∧ (∀ f ∈ frames, F.IsSeparator f.2) ∧
      t.2 = seen ++ frames.map (·.1) ∧ ∀ pending, result = .ok (some pending) → rest = pending := by
  induction hlen : b.length using Nat.strongRecOn generalizing b s seen with
  | _ n ih =>
    cases hnext : F.next eof b with
    | none =>
      rw [drain_none hnext, Stateful.run_pure, Prod.mk.injEq] at h
      obtain ⟨rfl, rfl⟩ := h
      exact ⟨[], b, rfl, by simp, by simp, fun pending hp => by cases hp; rfl⟩
    | some found =>
      obtain ⟨frame, separator, rest⟩ := found
      obtain ⟨hb, hseparator⟩ := F.next_eq hnext
      rw [drain_some hnext, rejectIf] at h
      split at h
      · -- the frame is refused and not handed over
        obtain ⟨rfl, rfl⟩ := Prod.mk.inj h
        exact ⟨[], b, rfl, by simp, by simp, fun pending hp => by cases hp⟩
      · rw [Stateful.lift_ok_bind, Stateful.run_bind] at h
        have hrun : (recording process frame).run (s, seen) =
          ((process frame s).1, (process frame s).2, seen ++ [frame]) := rfl
        rw [hrun] at h
        have hone : b = joined [(frame, separator)] ++ rest := by simp [joined, hb]
        cases haction : (process frame s).1 with
        | error e =>
          rw [haction] at h
          obtain ⟨rfl, rfl⟩ := Prod.mk.inj h
          exact ⟨_, _, hone, by simpa using hseparator, rfl, fun pending hp => by cases hp⟩
        | ok action =>
          rw [haction] at h
          cases action with
          | done =>
            obtain ⟨rfl, rfl⟩ := Prod.mk.inj h
            exact ⟨_, _, hone, by simpa using hseparator, rfl, fun pending hp => by cases hp⟩
          | «continue» =>
            obtain ⟨frames, left, hrest, hseparators, hseen, hpending⟩ :=
              ih _ (hlen ▸ F.next_length hnext) rest h rfl
            refine ⟨(frame, separator) :: frames, left, ?_, ?_, ?_, hpending⟩
            · rw [hb, hrest]
              simp [joined]
            · exact List.forall_mem_cons.2 ⟨hseparator, hseparators⟩
            · rw [hseen]
              simp

/-- **The frames handed over, their separators and the leftover make up the stream.** -/
theorem finish_recording (b : List α) {s : σ} {result : Except ε (Option (List α))}
    {t : σ × List (List α)}
    (h : (F.finish tooLarge (recording process) b).run (s, []) = (result, t)) :
    ∃ frames rest, b = joined frames ++ rest ∧ (∀ f ∈ frames, F.IsSeparator f.2) ∧
      t.2 = frames.map (·.1) ∧ ∀ leftover, result = .ok (some leftover) → rest = leftover := by
  rw [finish, Stateful.run_bind] at h
  cases hdrain : (F.drain tooLarge (recording process) true b).run (s, []) with
  | mk drained t' =>
    obtain ⟨frames, rest, hb, hseparators, hseen, hpending⟩ := drain_recording b hdrain
    rw [List.nil_append] at hseen
    rw [hdrain] at h
    cases drained with
    | error e =>
      obtain ⟨rfl, rfl⟩ := Prod.mk.inj h
      exact ⟨frames, rest, hb, hseparators, hseen, fun _ hl => by cases hl⟩
    | ok pending =>
      cases pending with
      | none =>
        obtain ⟨rfl, rfl⟩ := Prod.mk.inj h
        exact ⟨frames, rest, hb, hseparators, hseen, fun _ hl => by cases hl⟩
      | some pending =>
        simp only [andPending, checkPending, rejectIf] at h
        split at h
        · obtain ⟨rfl, rfl⟩ := Prod.mk.inj h
          exact ⟨frames, rest, hb, hseparators, hseen, fun _ hl => by cases hl⟩
        · obtain ⟨rfl, rfl⟩ := Prod.mk.inj h
          refine ⟨frames, rest, hb, hseparators, hseen, fun leftover hl => ?_⟩
          rw [hpending pending rfl]
          cases hl
          rfl

end Framing

end Base
