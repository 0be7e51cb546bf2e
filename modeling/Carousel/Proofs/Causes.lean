import Carousel.Failure
import Mathlib.Logic.Function.Iterate

/-! # Nested errors

An error may carry another one: a failure of a ring the cause or the byte-stream error behind it,
a byte-stream error its payload. `Cause.inner?` is the error directly inside an error and
`Cause.inside` lists all of them from the outside in, down to one that carries nothing.

The two kinds of carriers differ. A failure puts words of its own (`Cause.heading?`) in front of
the message of the error inside it, and has that error as its source. A byte-stream error shows
its payload and adds nothing, and it has the payload's source as its own, so that the payload is
missing among the sources (`Cause.inner_cases`). Messages miss nothing: that of an error is all
the words from the outside in, followed by the message of the innermost error
(`Cause.message_tells_all`).

A failure becomes a byte-stream error by being its payload, and a byte-stream error a failure by
being carried; `Failure.crossing_keeps_causes` says that this loses no error inside, however often
it is done, and that it adds at most one carrier of each kind. -/

namespace Carousel

namespace Cause

/-! ### The errors inside an error -/

/-- The error directly inside an error. -/
def inner? : Cause → Option Cause
  | .failure (.rejected cause) => some cause
  | .failure (.stream cause) => some cause
  | .failure (.io error) => some (.io error)
  | .io (.custom _ payload) => some payload
  | _ => none

/-- The words that a failure puts in front of the message of the error inside it. -/
def heading? : Cause → Option String
  | .failure (.rejected _) => some "filter rejected items: "
  | .failure (.stream _) => some "stream error: "
  | .failure (.io _) => some "I/O error: "
  | _ => none

end Cause

mutual

/-- The errors inside a failure, from the outside in. -/
def Failure.inside : Failure → List Cause
  | .rejected cause => cause :: cause.inside
  | .stream cause => cause :: cause.inside
  | .io error => .io error :: error.inside
  | _ => []

/-- The errors inside a byte-stream error, from the outside in. -/
def IoError.inside : IoError → List Cause
  | .bare _ => []
  | .note .. => []
  | .custom _ payload => payload :: payload.inside

/-- The errors inside any error, from the outside in. -/
def Cause.inside : Cause → List Cause
  | .text _ => []
  | .failure failure => failure.inside
  | .io error => error.inside

end

namespace Cause

/-- The error that `n` steps from an error to its source lead to. -/
def sourceAt (e : Cause) : Nat → Option Cause
  | 0 => some e
  | n + 1 => (e.sourceAt n).bind source?

variable {e inner : Cause}

/-- What an error without one inside it has. -/
theorem core_cases (h : e.inner? = none) :
    e.heading? = none ∧ e.source? = none ∧ e.chain = [] ∧ e.inside = [] := by
  cases e with
  | text text => exact ⟨rfl, rfl, rfl, rfl⟩
  | failure failure =>
      cases failure with
      | rejected | stream | io => cases h
      | _ => exact ⟨rfl, rfl, rfl, rfl⟩
  | io error =>
      cases error with
      | custom => cases h
      | _ => exact ⟨rfl, rfl, rfl, rfl⟩

/-- What an error with one inside it makes of it: a failure adds its words and has it as its
source, a byte-stream error passes it on as if it were not there itself. -/
theorem inner_cases (h : e.inner? = some inner) :
    e.inside = inner :: inner.inside ∧
      ((∃ words, e.heading? = some words ∧ e.message = words ++ inner.message ∧
          e.source? = some inner ∧ e.chain = inner :: inner.chain) ∨
        (e.heading? = none ∧ e.message = inner.message ∧ e.source? = inner.source? ∧
          e.chain = inner.chain)) := by
  cases e with
  | text text => cases h
  | failure failure =>
      cases failure with
      | rejected | stream | io =>
          cases h
          exact ⟨rfl, .inl ⟨_, rfl, rfl, rfl, rfl⟩⟩
      | _ => cases h
  | io error =>
      cases error with
      | custom kind payload =>
          cases h
          exact ⟨rfl, .inr ⟨rfl, rfl, rfl, rfl⟩⟩
      | _ => cases h

theorem sizeOf_inner (h : e.inner? = some inner) : sizeOf inner < sizeOf e := by
  unfold inner? at h
  split at h <;> cases h <;> simp <;> omega

/-- Induction from the innermost error outwards. -/
@[elab_as_elim]
theorem inner_induction {motive : Cause → Prop} (core : ∀ e, e.inner? = none → motive e)
    (carrier : ∀ e inner, e.inner? = some inner → motive inner → motive e) (e : Cause) :
    motive e :=
  match h : e.inner? with
  | none => core e h
  | some inner => carrier e inner h (inner_induction core carrier inner)
termination_by sizeOf e
decreasing_by exact sizeOf_inner h

/-! ### Sources -/

/-- The chain is the source of the error, the source of that, and so on. -/
theorem chain_eq (e : Cause) :
    e.chain = match e.source? with
      | none => []
      | some source => source :: source.chain := by
  induction e using inner_induction with
  | core e h =>
      obtain ⟨-, hsource, hchain, -⟩ := core_cases h
      rw [hsource, hchain]
  | carrier e inner h ih =>
      obtain ⟨-, ⟨words, -, -, hsource, hchain⟩ | ⟨-, -, hsource, hchain⟩⟩ := inner_cases h
      · rw [hsource, hchain]
      · rw [hsource, hchain]
        exact ih

theorem sourceAt_succ (e : Cause) (n : Nat) :
    e.sourceAt (n + 1) = e.source?.bind fun source => source.sourceAt n := by
  induction n with
  | zero => cases hs : e.source? <;> simp [sourceAt, hs]
  | succ n ih =>
      rw [sourceAt, ih, Option.bind_assoc]
      rfl

/-- The chain is finite, and ends where there is no further source. -/
theorem sourceAt_eq (e : Cause) (n : Nat) : e.sourceAt (n + 1) = e.chain[n]? := by
  induction n generalizing e with
  | zero =>
      rw [sourceAt_succ, chain_eq]
      cases e.source? <;> rfl
  | succ n ih =>
      rw [sourceAt_succ, chain_eq]
      cases e.source? with
      | none => rfl
      | some source => exact ih source

/-- What is missing in the chain is what byte-stream errors carry. -/
theorem chain_sublist_inside (e : Cause) : e.chain.Sublist e.inside := by
  induction e using inner_induction with
  | core e h =>
      obtain ⟨-, -, hchain, -⟩ := core_cases h
      rw [hchain]
      exact List.nil_sublist _
  | carrier e inner h ih =>
      obtain ⟨hinside, ⟨words, -, -, -, hchain⟩ | ⟨-, -, -, hchain⟩⟩ := inner_cases h
      · rw [hchain, hinside]
        exact ih.cons_cons inner
      · rw [hchain, hinside]
        exact ih.cons inner

/-! ### Messages -/

/-- Every message along the chain ends all messages before it. -/
theorem pairwise_messages (e : Cause) :
    (e :: e.chain).Pairwise fun outer behind =>
      behind.message.toList <:+ outer.message.toList := by
  induction e using inner_induction with
  | core e h =>
      obtain ⟨-, -, hchain, -⟩ := core_cases h
      rw [hchain]
      exact List.pairwise_singleton _ e
  | carrier e inner h ih =>
      obtain ⟨hbehind, hlater⟩ := List.pairwise_cons.mp ih
      obtain ⟨-, ⟨words, -, hmessage, -, hchain⟩ | ⟨-, hmessage, -, hchain⟩⟩ := inner_cases h
      · have hinner : inner.message.toList <:+ e.message.toList := by
          rw [hmessage, String.toList_append]
          exact List.suffix_append _ _
        rw [hchain, List.pairwise_cons]
        refine ⟨?_, ih⟩
        intro behind hb
        rcases List.mem_cons.mp hb with rfl | hb
        · exact hinner
        · exact (hbehind behind hb).trans hinner
      -- the payload has the same message, so the chain behind it may follow on the error itself
      · rw [hchain, List.pairwise_cons, hmessage]
        exact ⟨hbehind, hlater⟩

/-- The words of all carriers, from the outside in, and the message of the innermost error. -/
theorem message_eq_join (e : Cause) :
    ∃ carriers core, e :: e.inside = carriers ++ [core] ∧ core.inner? = none ∧
      (∀ x ∈ carriers, x.inner? ≠ none) ∧
      e.message = String.join (carriers.filterMap heading?) ++ core.message := by
  induction e using inner_induction with
  | core e h =>
      obtain ⟨-, -, -, hinside⟩ := core_cases h
      exact ⟨[], e, by rw [hinside, List.nil_append], h, by simp, by simp⟩
  | carrier e inner h ih =>
      obtain ⟨carriers, core, hlayers, hcore, hcarriers, hjoin⟩ := ih
      obtain ⟨hinside, hshown⟩ := inner_cases h
      refine ⟨e :: carriers, core, by rw [hinside, hlayers, List.cons_append], hcore, ?_, ?_⟩
      · intro x hx
        rcases List.mem_cons.mp hx with rfl | hx
        · simp [h]
        · exact hcarriers x hx
      · obtain ⟨words, hwords, hmessage, -⟩ | ⟨hnone, hmessage, -⟩ := hshown
        · rw [hmessage, hjoin, List.filterMap_cons_some hwords, String.join_cons,
            String.append_assoc]
        · rw [hmessage, hjoin, List.filterMap_cons_none hnone]

/-- **A message tells the whole chain of causes.** Going from an error to its source, and on from
there, leads along the chain, which comes to an end; each message on the way ends all those before
it. The message of the error is that of the innermost error, behind the words of all failures that
carry it, the ones inside a payload among them, although the chain leaves payloads out. -/
theorem message_tells_all (e : Cause) :
    (∀ n, e.sourceAt (n + 1) = e.chain[n]?) ∧
      ((e :: e.chain).Pairwise fun outer behind =>
        behind.message.toList <:+ outer.message.toList) ∧
      e.chain.Sublist e.inside ∧
      ∃ carriers core, e :: e.inside = carriers ++ [core] ∧ core.inner? = none ∧
        (∀ x ∈ carriers, x.inner? ≠ none) ∧
        e.message = String.join (carriers.filterMap heading?) ++ core.message :=
  ⟨e.sourceAt_eq, e.pairwise_messages, e.chain_sublist_inside, e.message_eq_join⟩

end Cause

/-! ### Crossing between failures and byte-stream errors -/

namespace Failure

/-- A failure that has become a byte-stream error and a failure again. -/
def crossed (f : Failure) : Failure := ofIo f.toIo

/-- Only the first crossing changes anything. -/
theorem iterate_crossed (f : Failure) (n : Nat) : crossed^[n + 1] f = f.crossed := by
  induction n with
  | zero => rfl
  | succ n ih =>
      rw [Function.iterate_succ_apply', ih]
      rfl

/-- A failure that is no byte-stream error becomes the payload of one. -/
theorem toIo_eq (f : Failure) :
    (∃ error, f = io error ∧ f.toIo = error) ∨
      ((∀ error, f ≠ io error) ∧ f.toIo = .custom f.ioKind (.failure f)) := by
  cases f with
  | io error => exact .inl ⟨error, rfl, rfl⟩
  | _ => exact .inr ⟨nofun, rfl⟩

theorem suffix_crossed (f : Failure) :
    f.chain <:+ f.crossed.chain ∧
      Cause.failure f :: f.inside <:+ Cause.failure f.crossed :: f.crossed.inside := by
  rcases f.toIo_eq with ⟨error, rfl, -⟩ | ⟨-, htoIo⟩
  · exact ⟨List.suffix_refl _, List.suffix_refl _⟩
  · unfold crossed
    rw [htoIo]
    exact ⟨List.suffix_cons _ _, (List.suffix_cons _ _).trans (List.suffix_cons _ _)⟩

/-- **Crossing loses no cause.** A byte-stream error comes back as it was. Any other failure is
the payload of the byte-stream error that it becomes, which has the same message and the same
sources; crossing back puts the words of a stream failure in front of the message, and the
byte-stream error in front of the chain. So crossing a second time, or more often, changes nothing
any more, and the errors inside a failure and its chain stay at the end of those it ends with. -/
theorem crossing_keeps_causes (f : Failure) :
    ((∃ error, f = io error ∧ f.toIo = error ∧ f.crossed = f) ∨
      ((∀ error, f ≠ io error) ∧ f.toIo.message = f.message ∧
        f.toIo.payload? = some (.failure f) ∧ f.toIo.chain = f.chain ∧
        (∀ n, (Cause.io f.toIo).sourceAt (n + 1) = (Cause.failure f).sourceAt (n + 1)) ∧
        f.crossed.message = "I/O error: " ++ f.message ∧
        f.crossed.chain = .io f.toIo :: f.chain)) ∧
      (∀ error, (ofIo error).toIo = error) ∧
      (∀ n, crossed^[n + 1] f = f.crossed) ∧
      ∀ n, f.chain <:+ (crossed^[n] f).chain ∧
        Cause.failure f :: f.inside <:+
          Cause.failure (crossed^[n] f) :: (crossed^[n] f).inside := by
  refine ⟨?_, fun error => rfl, f.iterate_crossed, ?_⟩
  · rcases f.toIo_eq with ⟨error, rfl, htoIo⟩ | ⟨hne, htoIo⟩
    · exact .inl ⟨error, rfl, htoIo, rfl⟩
    · have hchain : f.toIo.chain = f.chain := by rw [htoIo]; rfl
      have hmessage : f.toIo.message = f.message := by rw [htoIo]; rfl
      refine .inr ⟨hne, hmessage, by rw [htoIo]; rfl, hchain, ?_, ?_, ?_⟩
      · intro n
        rw [Cause.sourceAt_eq, Cause.sourceAt_eq]
        exact congrArg (·[n]?) hchain
      · rw [← hmessage]
        rfl
      · rw [← hchain]
        rfl
  · intro n
    cases n with
    | zero => exact ⟨List.suffix_refl _, List.suffix_refl _⟩
    | succ n =>
        rw [iterate_crossed]
        exact f.suffix_crossed

end Failure

end Carousel
