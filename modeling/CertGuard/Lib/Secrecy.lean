import Mathlib.Data.Set.Basic

/-!
# What an observer can make of messages

Messages are built from atoms by pairing, by one-way functions and by sealing under a key, and an
observer who has some of them makes others: it takes pairs apart, applies the functions, seals
under what it has and opens what was sealed under it. Whatever is unknown stays so as long as it
travels only under keys that are unknown as well, and such keys seal only what they are meant for.

## Main definitions

* `Secrecy.Term` — messages
* `Secrecy.Derives` — what can be made of a set of messages
* `Secrecy.Public` — messages that may be shown, for given secrets and a rule what is sealed

## Main results

* `Secrecy.Derives.cut` — what is made of what was made
* `Secrecy.public_of_derives` — only what may be shown can be made of what may be shown
* `Secrecy.public_of_atoms` — a message that has no secret in it may be shown
-/

namespace Secrecy

/-- Messages over some atoms and one-way functions. -/
inductive Term (α φ : Type*)
  | atom (a : α)
  | pair (s t : Term α φ)
  | image (f : φ) (t : Term α φ)
  | sealed (key t : Term α φ)
  deriving DecidableEq

variable {α φ : Type*}

/-- What can be made of the messages in a set. -/
inductive Derives (K : Set (Term α φ)) : Term α φ → Prop
  | known {t} (h : t ∈ K) : Derives K t
  | pair {s t} (hs : Derives K s) (ht : Derives K t) : Derives K (.pair s t)
  | fst {s t} (h : Derives K (.pair s t)) : Derives K s
  | snd {s t} (h : Derives K (.pair s t)) : Derives K t
  | image (f : φ) {t} (h : Derives K t) : Derives K (.image f t)
  | sealed {key t} (hkey : Derives K key) (ht : Derives K t) : Derives K (.sealed key t)
  | opened {key t} (h : Derives K (.sealed key t)) (hkey : Derives K key) : Derives K t

variable {K L : Set (Term α φ)} {t : Term α φ}

/-- What can be made of messages that can be made themselves. -/
theorem Derives.cut (h : Derives L t) (hL : ∀ s ∈ L, Derives K s) : Derives K t := by
  induction h with
  | known hs => exact hL _ hs
  | pair _ _ ihs iht => exact .pair ihs iht
  | fst _ ih => exact .fst ih
  | snd _ ih => exact .snd ih
  | image f _ ih => exact .image f ih
  | sealed _ _ ihkey iht => exact .sealed ihkey iht
  | opened _ _ ih ihkey => exact .opened ih ihkey

theorem Derives.mono (h : Derives K t) (hKL : K ⊆ L) : Derives L t :=
  h.cut fun _ hs => .known (hKL hs)

/-! ### What may be shown -/

/-- A message may be shown, where `secret` are the atoms that may not and `carries` says what is
sealed under a key that may not. -/
def Public (secret : Set α) (carries : Term α φ → Term α φ → Prop) : Term α φ → Prop
  | .atom a => a ∉ secret
  | .pair s t => Public secret carries s ∧ Public secret carries t
  | .image _ t => Public secret carries t
  | .sealed key t =>
    ¬ Public secret carries key ∧ carries key t ∨
      Public secret carries key ∧ Public secret carries t

/-- The atoms a message is built from. -/
def Term.atoms : Term α φ → List α
  | .atom a => [a]
  | .pair s t => s.atoms ++ t.atoms
  | .image _ t => t.atoms
  | .sealed key t => key.atoms ++ t.atoms

variable {secret : Set α} {carries : Term α φ → Term α φ → Prop}

/-- Only messages that may be shown can be made of such messages. -/
theorem public_of_derives (h : Derives K t) (hK : ∀ s ∈ K, Public secret carries s) :
    Public secret carries t := by
  induction h with
  | known hs => exact hK _ hs
  | pair _ _ ihs iht => exact ⟨ihs, iht⟩
  | fst _ ih => exact ih.1
  | snd _ ih => exact ih.2
  | image _ _ ih => exact ih
  | sealed _ _ ihkey iht => exact Or.inr ⟨ihkey, iht⟩
  | opened _ _ ih ihkey =>
    -- under a key that may be shown is nothing that may not
    rcases ih with ⟨hsecret, -⟩ | ⟨-, ht⟩
    · exact absurd ihkey hsecret
    · exact ht

/-- What a key that may not be shown seals is what it is meant for. -/
theorem carries_of_public {key : Term α φ} (h : Public secret carries (.sealed key t))
    (hkey : ¬ Public secret carries key) : carries key t := by
  rcases h with ⟨-, hcarries⟩ | ⟨hpublic, -⟩
  · exact hcarries
  · exact absurd hpublic hkey

/-- A message that has no secret in it may be shown. -/
theorem public_of_atoms (h : ∀ a ∈ t.atoms, a ∉ secret) : Public secret carries t := by
  induction t with
  | atom a => exact h a (List.mem_singleton_self a)
  | pair s t ihs iht =>
    exact ⟨ihs fun a ha => h a (List.mem_append_left _ ha),
      iht fun a ha => h a (List.mem_append_right _ ha)⟩
  | image f t ih => exact ih h
  | sealed key t ihkey iht =>
    exact Or.inr ⟨ihkey fun a ha => h a (List.mem_append_left _ ha),
      iht fun a ha => h a (List.mem_append_right _ ha)⟩

end Secrecy
