import Mathlib.Data.List.Basic
import QuayTitan.Model.SwapRoute
import QuayTitan.Model.Route.Wire

/-! # The wire format of a route

The builder encodes by hand what the program decodes with its derived codec, each with its
own copy of the leg types. -/

namespace QuayTitan.SwapRoute

open ByteFields Borsh

/-! ## The two copies of the leg types -/

/-- The program's copy of a selector. -/
def Venue.onChain : Venue → Route.Venue
  | .quay sellBase => .quay sellBase

/-- The program's copy of a leg. -/
def SwapSpecInputV2.onChain (swap : SwapSpecInputV2) : Route.SwapSpecInputV2 where
  venue := swap.venue.onChain
  «from» := swap.from
  «to» := swap.to
  weightNanos := swap.weightNanos
  nAccounts := swap.nAccounts

theorem onChain_bijective : Function.Bijective SwapSpecInputV2.onChain := by
  constructor
  · rintro ⟨⟨sellBase⟩, «from», «to», weightNanos, nAccounts⟩
      ⟨⟨sellBase'⟩, from', to', weightNanos', nAccounts'⟩ h
    injection h with hvenue hfrom hto hweight hcount
    injection hvenue with hside
    subst hside hfrom hto hweight hcount
    rfl
  · rintro ⟨⟨sellBase⟩, «from», «to», weightNanos, nAccounts⟩
    exact ⟨⟨.quay sellBase, «from», «to», weightNanos, nAccounts⟩, rfl⟩

/-- Both copies have one encoding. -/
theorem encode_onChain (swap : SwapSpecInputV2) :
    Route.SwapSpecInputV2.codec.encode swap.onChain = SwapSpecInputV2.codec.encode swap := by
  obtain ⟨⟨sellBase⟩, «from», «to», weightNanos, nAccounts⟩ := swap
  rfl

theorem encodeAll_onChain (swaps : List SwapSpecInputV2) :
    Route.SwapSpecInputV2.codec.encodeAll (swaps.map SwapSpecInputV2.onChain) =
      swaps.flatMap SwapSpecInputV2.codec.encode := by
  rw [Codec.encodeAll, List.flatMap_map]
  exact List.flatMap_congr fun swap _ => encode_onChain swap

/-! ## The data of an instruction -/

/-- A route the `u32` length can count is encoded as the program's arguments. -/
theorem encodeSwapRouteV3Data_eq (amount : UInt64) (mints : UInt8)
    {swaps : List SwapSpecInputV2} (hlength : swaps.length < 2 ^ 32) :
    encodeSwapRouteV3Data amount mints swaps = Route.swapRouteV3Discriminator ::
      Route.swapRouteV3Args.encode (amount, mints, swaps.map SwapSpecInputV2.onChain) := by
  have hcount : (UInt32.ofNat swaps.length).toNat = swaps.length :=
    UInt32.toNat_ofNat_of_lt' hlength
  have hargs : Route.swapRouteV3Args.encode (amount, mints, swaps.map SwapSpecInputV2.onChain) =
      leBytes 8 amount.toNat ++ ([mints] ++ (leBytes 4 (swaps.map SwapSpecInputV2.onChain).length ++
        Route.SwapSpecInputV2.codec.encodeAll (swaps.map SwapSpecInputV2.onChain))) := rfl
  rw [hargs, encodeAll_onChain, List.length_map, encodeSwapRouteV3Data, hcount]
  simp only [List.append_assoc, List.singleton_append]
  rfl

theorem args_fit (amount : UInt64) (mints : UInt8) {swaps : List Route.SwapSpecInputV2} :
    Route.swapRouteV3Args.fits (amount, mints, swaps) ↔ swaps.length < 2 ^ 32 := by
  constructor
  · exact fun h => h.2.2.1
  · intro hlength
    refine ⟨amount.toNat_lt, trivial, hlength, fun swap _ => ?_⟩
    exact ⟨trivial, trivial, trivial, swap.weightNanos.toNat_lt, trivial⟩

/-- The program decodes an encoded route to its values. -/
theorem decodeSwapRouteV3_encode (amount : UInt64) (mints : UInt8) {swaps : List SwapSpecInputV2}
    (hlength : swaps.length < 2 ^ 32) :
    Route.decodeSwapRouteV3 (encodeSwapRouteV3Data amount mints swaps) =
      some ((amount, mints, swaps.map SwapSpecInputV2.onChain), []) := by
  have hfits : Route.swapRouteV3Args.fits (amount, mints, swaps.map SwapSpecInputV2.onChain) := by
    rw [args_fit, List.length_map]
    exact hlength
  have hdecode := Route.swapRouteV3Args.decode_encode hfits []
  rw [List.append_nil] at hdecode
  rw [encodeSwapRouteV3Data_eq amount mints hlength, Route.decodeSwapRouteV3, if_pos rfl]
  exact hdecode

/-- The program decodes every encoded route to its values, and whatever it decodes without
a rest is the encoding of exactly one route. -/
theorem wireFormat_roundTrip :
    (∀ amount mints swaps, swaps.length < 2 ^ 32 →
      Route.decodeSwapRouteV3 (encodeSwapRouteV3Data amount mints swaps) =
        some ((amount, mints, swaps.map SwapSpecInputV2.onChain), [])) ∧
    ∀ data amount mints decoded,
      Route.decodeSwapRouteV3 data = some ((amount, mints, decoded), []) →
      ∃! swaps, swaps.map SwapSpecInputV2.onChain = decoded ∧ swaps.length < 2 ^ 32 ∧
        data = encodeSwapRouteV3Data amount mints swaps := by
  constructor
  · exact fun amount mints swaps => decodeSwapRouteV3_encode amount mints
  · intro data amount mints decoded h
    cases data with
    | nil => cases h
    | cons discriminator args =>
        rw [Route.decodeSwapRouteV3] at h
        split at h
        · rename_i hdiscriminator
          obtain ⟨hfits, hargs⟩ := Route.swapRouteV3Args.encode_decode h
          have hlength := (args_fit amount mints).mp hfits
          obtain ⟨swaps, rfl⟩ := List.map_surjective_iff.mpr onChain_bijective.surjective decoded
          rw [List.length_map] at hlength
          rw [List.append_nil] at hargs
          refine ⟨swaps, ⟨rfl, hlength, ?_⟩, fun other hother => ?_⟩
          · rw [encodeSwapRouteV3Data_eq amount mints hlength, hdiscriminator, hargs]
          · exact List.map_injective_iff.mpr onChain_bijective.injective hother.1
        · cases h

/-- A route of two legs and its bytes. -/
theorem wireFormat_roundTrip_sample :
    Route.decodeSwapRouteV3 (encodeSwapRouteV3Data 5000 3
        [⟨.quay true, 0, 1, routeWeightAll, 16⟩, ⟨.quay false, 1, 2, routeWeightAll, 17⟩]) =
      some ((5000, 3, [⟨.quay true, 0, 1, 1000000000, 16⟩, ⟨.quay false, 1, 2, 1000000000, 17⟩]),
        []) ∧
    ∃! swaps, swaps.map SwapSpecInputV2.onChain =
        [⟨.quay true, 0, 1, 1000000000, 16⟩, ⟨.quay false, 1, 2, 1000000000, 17⟩] ∧
      swaps.length < 2 ^ 32 ∧
      [42, 136, 19, 0, 0, 0, 0, 0, 0, 3, 2, 0, 0, 0, 0, 1, 0, 1, 0, 202, 154, 59, 16, 0, 0, 1, 2, 0,
        202, 154, 59, 17] = encodeSwapRouteV3Data 5000 3 swaps :=
  ⟨wireFormat_roundTrip.1 5000 3
      [⟨.quay true, 0, 1, routeWeightAll, 16⟩, ⟨.quay false, 1, 2, routeWeightAll, 17⟩] (by decide),
    wireFormat_roundTrip.2 _ 5000 3
      [⟨.quay true, 0, 1, 1000000000, 16⟩, ⟨.quay false, 1, 2, 1000000000, 17⟩]
      (by decide +kernel)⟩

end QuayTitan.SwapRoute
