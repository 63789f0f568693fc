import Lucidac.Block.IBlockOutputs
import Lucidac.Framework.Script

/-!
# The order of the outputs in an I block configuration

The object form clears and connects one named output after the other.  An input that moves from
one named output to another is free only after its old output is cleared, so the order of the
members decides.  The requested matrix itself does not depend on the order.
-/

namespace Lucidac.IBlock

open Framework

/-- One member of the object form: a numeral of an output, and its inputs. -/
structure OutputRequest where
  key : IndexKey 16
  inputSpec : InputSpec

namespace OutputRequest

def output (r : OutputRequest) : Fin 16 := r.key.index

theorem output_mod (r : OutputRequest) : r.key.index.val % 256 = r.output.val :=
  r.key.index_mod (by decide)

def toMember (r : OutputRequest) : String × Json := (r.key.text, r.inputSpec.toJson)

def Wants (r : OutputRequest) (input : Fin 32) : Prop := input ∈ r.inputSpec.wanted

end OutputRequest

section Matrix

variable (s : IBlock) (requests : List OutputRequest)

/-- The requested matrix: named outputs are replaced, the others are kept. -/
def Requested (input : Fin 32) (output : Fin 16) : Prop :=
  (∃ r ∈ requests, r.output = output ∧ r.Wants input) ∨
    ((∀ r ∈ requests, r.output ≠ output) ∧ s.Feeds input output)

def RequestsUnsplit : Prop :=
  ∀ input output other, Requested s requests input output → Requested s requests input other →
    output = other

/-- A named output asks for an input that another named output fed before. -/
def MovesInput : Prop :=
  ∃ r ∈ requests, ∃ previous ∈ requests, ∃ input, r.Wants input ∧ previous.output ≠ r.output ∧
    s.Feeds input previous.output

/-- The block `u` has exactly the requested matrix. -/
structure Reached (u : IBlock) : Prop where
  feeds : ∀ input output, u.Feeds input output ↔ Requested s requests input output
  scalingFactors : u.scalingFactors = s.scalingFactors

variable {s requests}

theorem requested_of_perm {requests' : List OutputRequest} (h : requests.Perm requests')
    (input : Fin 32) (output : Fin 16) :
    Requested s requests input output ↔ Requested s requests' input output := by
  simp only [Requested, h.mem_iff]

theorem requestsUnsplit_of_perm {requests' : List OutputRequest} (h : requests.Perm requests') :
    RequestsUnsplit s requests ↔ RequestsUnsplit s requests' := by
  simp only [RequestsUnsplit, requested_of_perm h]

theorem movesInput_of_perm {requests' : List OutputRequest} (h : requests.Perm requests') :
    MovesInput s requests ↔ MovesInput s requests' := by
  simp only [MovesInput, h.mem_iff]

theorem Reached.of_perm {requests' : List OutputRequest} (h : requests.Perm requests') {u : IBlock}
    (hu : Reached s requests u) : Reached s requests' u :=
  ⟨fun input output => (hu.feeds input output).trans (requested_of_perm h input output),
    hu.scalingFactors⟩

theorem Reached.eq {u v : IBlock} (hu : Reached s requests u) (hv : Reached s requests v) : u = v :=
  ext_feeds (fun input output => (hu.feeds input output).trans (hv.feeds input output).symm)
    (hu.scalingFactors.trans hv.scalingFactors.symm)

theorem requested_next {done : List OutputRequest} {r : OutputRequest}
    (hnew : ∀ d ∈ done, d.output ≠ r.output) (input : Fin 32) (output : Fin 16) :
    Requested s (done ++ [r]) input output ↔
      output = r.output ∧ r.Wants input ∨ output ≠ r.output ∧ Requested s done input output := by
  by_cases hout : output = r.output
  · subst hout
    simp only [Requested, List.mem_append, List.mem_singleton, true_and, ne_eq, not_true_eq_false,
      false_and, or_false]
    constructor
    · intro h
      rcases h with ⟨d, hd | rfl, hsame, hwants⟩ | ⟨hnone, -⟩
      · exact absurd hsame (hnew d hd)
      · exact hwants
      · exact absurd rfl (hnone r (Or.inr rfl))
    · intro hwants
      exact Or.inl ⟨r, Or.inr rfl, rfl, hwants⟩
  · simp only [hout, false_and, ne_eq, not_false_eq_true, true_and, false_or]
    simp only [Requested, List.mem_append, List.mem_singleton]
    constructor
    · intro h
      rcases h with ⟨d, hd | rfl, hsame, hwants⟩ | ⟨hnone, hfeeds⟩
      · exact Or.inl ⟨d, hd, hsame, hwants⟩
      · exact absurd hsame.symm hout
      · exact Or.inr ⟨fun d hd => hnone d (Or.inl hd), hfeeds⟩
    · intro h
      rcases h with ⟨d, hd, hsame, hwants⟩ | ⟨hnone, hfeeds⟩
      · exact Or.inl ⟨d, Or.inl hd, hsame, hwants⟩
      · refine Or.inr ⟨fun d hd => ?_, hfeeds⟩
        rcases hd with hd | rfl
        · exact hnone d hd
        · exact Ne.symm hout

end Matrix

/-! ### All named outputs -/

section Object

variable {s : IBlock} {requests : List OutputRequest}

/-- The block after the members in `done`. -/
structure PartlyReached (s : IBlock) (done : List OutputRequest) (u : IBlock) : Prop where
  reached : Reached s done u
  unsplit : u.Unsplit

theorem partlyReached_nil (hs : s.Unsplit) : PartlyReached s [] s :=
  ⟨⟨fun _ _ => by simp [Requested], rfl⟩, hs⟩

theorem PartlyReached.next {done : List OutputRequest} {r : OutputRequest} {u v : IBlock}
    (hu : PartlyReached s done u) (hnew : ∀ d ∈ done, d.output ≠ r.output)
    (hv : Rewired u r.output r.inputSpec.wanted v) : PartlyReached s (done ++ [r]) v := by
  refine ⟨⟨fun input output => ?_, hv.scalingFactors.trans hu.reached.scalingFactors⟩,
    hv.unsplit hu.unsplit⟩
  rw [hv.feeds, requested_next hnew, hu.reached.feeds]
  exact Iff.rfl

/-- A member finds its input taken only if the request splits it or moves it. -/
theorem PartlyReached.of_taken {done rest : List OutputRequest} {r : OutputRequest} {u : IBlock}
    (hlist : requests = done ++ r :: rest) (hu : PartlyReached s done u) (htaken : Taken u r.output r.inputSpec.wanted) :
    ¬ RequestsUnsplit s requests ∨ MovesInput s requests := by
  obtain ⟨input, hwants, other, hne, hfeeds⟩ := htaken
  have hr : r ∈ requests := by simp [hlist]
  have hown : Requested s requests input r.output := Or.inl ⟨r, hr, rfl, hwants⟩
  rcases (hu.reached.feeds input other).mp hfeeds with ⟨d, hd, hout, hd'⟩ | ⟨-, hold⟩
  · refine Or.inl fun hunsplit => hne (hunsplit input other r.output ?_ hown)
    exact Or.inl ⟨d, by simp [hlist, hd], hout, hd'⟩
  · by_cases hnamed : ∃ previous ∈ requests, previous.output = other
    · obtain ⟨previous, hprevious, rfl⟩ := hnamed
      exact Or.inr ⟨r, hr, previous, hprevious, input, hwants, hne, hold⟩
    · refine Or.inl fun hunsplit => hne (hunsplit input other r.output ?_ hown)
      exact Or.inr ⟨fun d hd he => hnamed ⟨d, hd, he⟩, hold⟩

theorem configOutputObject_request (hs : s.Unsplit)
    (hdistinct : (requests.map OutputRequest.output).Nodup) :
    wp (configOutputObject (requests.map OutputRequest.toMember))
      (fun _ u => PartlyReached s requests u)
      (fun _ _ => ¬ RequestsUnsplit s requests ∨ MovesInput s requests) s := by
  simp only [configOutputObject, List.forM_map]
  apply wp_forM (fun done u => PartlyReached s done u) requests (partlyReached_nil hs)
  intro done r rest u hlist hu
  have hnew (d : OutputRequest) (hd : d ∈ done) : d.output ≠ r.output :=
    ne_of_nodup_map (hlist ▸ hdistinct) hd
  obtain ⟨v, hdisconnect, hv⟩ := disconnect_rewired u r.output
  simp only [OutputRequest.toMember, wp_bind, wp_require, r.key.isNumber_text, if_true,
    r.key.readIndex_text (by decide), wp_pure, wp_attempt, r.output_mod]
  rw [hdisconnect, if_pos rfl]
  refine wp_mono (connectFromJson_inputSpec r.inputSpec hv) ?_ ?_
  · intro _ w hw
    exact hu.next hnew hw
  · intro _ _ htaken
    exact hu.of_taken hlist htaken

/-- Success and final block of configuring the members in the given order. -/
def configure (s : IBlock) (requests : List OutputRequest) : Bool × IBlock :=
  outcome (configOutputsFromJson (.object (requests.map OutputRequest.toMember))) s

theorem configure_append (s : IBlock) (xs ys : List OutputRequest) :
    configure s (xs ++ ys) = andThen (fun t => configure t xs) (fun t => configure t ys) s := by
  simp only [configure, configOutputsFromJson, configOutputObject]
  rw [List.map_append, List.forM_append, outcome_seq]

theorem configure_success (hs : s.Unsplit) (hdistinct : (requests.map OutputRequest.output).Nodup)
    (h : (configure s requests).1 = true) : PartlyReached s requests (configure s requests).2 :=
  (outcome_of_wp (configOutputObject_request hs hdistinct)).1 h

theorem configure_of_unsplit (hs : s.Unsplit) (hdistinct : (requests.map OutputRequest.output).Nodup)
    (hunsplit : RequestsUnsplit s requests) (hmoves : ¬ MovesInput s requests) :
    (configure s requests).1 = true := by
  cases hsuccess : (configure s requests).1 with
  | true => rfl
  | false =>
    rcases (outcome_of_wp (configOutputObject_request hs hdistinct)).2 hsuccess with h | h
    · exact absurd hunsplit h
    · exact absurd h hmoves

theorem requestsUnsplit_of_success (hs : s.Unsplit)
    (hdistinct : (requests.map OutputRequest.output).Nodup)
    (h : (configure s requests).1 = true) : RequestsUnsplit s requests := by
  have hreached := configure_success hs hdistinct h
  intro input output other hout hother
  exact hreached.unsplit input output other ((hreached.reached.feeds _ _).mpr hout)
    ((hreached.reached.feeds _ _).mpr hother)

/-- With the asking output in front, an input that moves is not free yet. -/
theorem configure_moved_first (hs : s.Unsplit) {r : OutputRequest} (rest : List OutputRequest)
    {input : Fin 32} {previous : Fin 16} (hwants : r.Wants input) (hne : previous ≠ r.output)
    (hfeeds : s.Feeds input previous) : (configure s (r :: rest)).1 = false := by
  have hfirst : (configure s [r]).1 = false := by
    cases hsuccess : (configure s [r]).1 with
    | false => rfl
    | true =>
      have hunsplit := requestsUnsplit_of_success hs (by simp) hsuccess
      refine absurd (hunsplit input previous r.output (Or.inr ⟨?_, hfeeds⟩) ?_) hne
      · intro d hd
        rw [List.mem_singleton.mp hd]
        exact hne.symm
      · exact Or.inl ⟨r, List.mem_cons_self, rfl, hwants⟩
  have hsplit := configure_append s [r] rest
  simp only [andThen] at hsplit
  rw [hfirst, if_neg Bool.false_ne_true] at hsplit
  rw [List.singleton_append] at hsplit
  rw [hsplit, hfirst]

/-- Every order of the members gives the same success and, when successful, the same block; and a
requested matrix without split inputs is reached. -/
def OrderFree (s : IBlock) (requests : List OutputRequest) : Prop :=
  (∀ requests', requests.Perm requests' →
    (configure s requests').1 = (configure s requests).1 ∧
      ((configure s requests).1 = true → (configure s requests').2 = (configure s requests).2)) ∧
  (RequestsUnsplit s requests →
    (configure s requests).1 = true ∧ Reached s requests (configure s requests).2)

theorem configure_perm_split (hs : s.Unsplit)
    (hdistinct : (requests.map OutputRequest.output).Nodup) (hsplit : ¬ RequestsUnsplit s requests)
    {requests' : List OutputRequest} (hperm : requests.Perm requests') :
    (configure s requests').1 = false := by
  cases hsuccess : (configure s requests').1 with
  | false => rfl
  | true =>
    have hdistinct' := (hperm.map OutputRequest.output).nodup_iff.mp hdistinct
    exact absurd ((requestsUnsplit_of_perm hperm).mpr
      (requestsUnsplit_of_success hs hdistinct' hsuccess)) hsplit

theorem configure_perm_unsplit (hs : s.Unsplit)
    (hdistinct : (requests.map OutputRequest.output).Nodup) (hunsplit : RequestsUnsplit s requests)
    (hmoves : ¬ MovesInput s requests) {requests' : List OutputRequest}
    (hperm : requests.Perm requests') :
    (configure s requests').1 = true ∧ Reached s requests (configure s requests').2 := by
  have hdistinct' := (hperm.map OutputRequest.output).nodup_iff.mp hdistinct
  have hsuccess := configure_of_unsplit hs hdistinct' ((requestsUnsplit_of_perm hperm).mp hunsplit)
    fun h => hmoves ((movesInput_of_perm hperm).mpr h)
  exact ⟨hsuccess, (configure_success hs hdistinct' hsuccess).reached.of_perm hperm.symm⟩

private theorem orderFree_of_split (hs : s.Unsplit)
    (hdistinct : (requests.map OutputRequest.output).Nodup)
    (hsplit : ¬ RequestsUnsplit s requests) : OrderFree s requests := by
  have hfails := configure_perm_split hs hdistinct hsplit (List.Perm.refl _)
  refine ⟨fun requests' hperm => ⟨?_, fun hsuccess => ?_⟩, fun hunsplit => absurd hunsplit hsplit⟩
  · rw [hfails, configure_perm_split hs hdistinct hsplit hperm]
  · rw [hfails] at hsuccess
    cases hsuccess

private theorem orderFree_of_unsplit (hs : s.Unsplit)
    (hdistinct : (requests.map OutputRequest.output).Nodup) (hunsplit : RequestsUnsplit s requests)
    (hmoves : ¬ MovesInput s requests) : OrderFree s requests := by
  obtain ⟨hsuccess, hreached⟩ :=
    configure_perm_unsplit hs hdistinct hunsplit hmoves (List.Perm.refl _)
  refine ⟨fun requests' hperm => ?_, fun _ => ⟨hsuccess, hreached⟩⟩
  obtain ⟨hsuccess', hreached'⟩ := configure_perm_unsplit hs hdistinct hunsplit hmoves hperm
  exact ⟨hsuccess'.trans hsuccess.symm, fun _ => hreached'.eq hreached⟩

/-- An input that moves is refused in one of the orders. -/
theorem not_orderFree_of_movesInput (hs : s.Unsplit) (hunsplit : RequestsUnsplit s requests)
    (hmoves : MovesInput s requests) : ¬ OrderFree s requests := by
  obtain ⟨r, hr, previous, -, input, hwants, hne, hfeeds⟩ := hmoves
  obtain ⟨front, behind, rfl⟩ := List.append_of_mem hr
  intro hfree
  have hsuccess := (hfree.1 (r :: (front ++ behind)) List.perm_middle).1
  rw [configure_moved_first hs _ hwants hne hfeeds, (hfree.2 hunsplit).1] at hsuccess
  cases hsuccess

/-- Configuring named outputs is independent of their order, and reaches every requested matrix
without split inputs, exactly when the request splits an input or moves none between named
outputs. -/
theorem orderFree_iff_not_movesInput (s : IBlock) (requests : List OutputRequest) (hs : s.Unsplit)
    (hdistinct : (requests.map OutputRequest.output).Nodup) :
    OrderFree s requests ↔ ¬ RequestsUnsplit s requests ∨ ¬ MovesInput s requests := by
  constructor
  · intro hfree
    by_contra h
    rw [not_or, not_not, not_not] at h
    obtain ⟨hunsplit, hmoves⟩ := h
    exact not_orderFree_of_movesInput hs hunsplit hmoves hfree
  · intro h
    by_cases hunsplit : RequestsUnsplit s requests
    · rcases h with hsplit | hmoves
      · exact absurd hunsplit hsplit
      · exact orderFree_of_unsplit hs hdistinct hunsplit hmoves
    · exact orderFree_of_split hs hdistinct hunsplit

/-- Inputs 3 and 4 are summed on output 0, input 7 feeds output 1, and input 0 feeds output 2. -/
def summing : IBlock :=
  ⟨fun output => if output.val = 0 then 0b11000 else if output.val = 1 then 0b10000000
    else if output.val = 2 then 1 else 0, fun input => input.val == 3⟩

theorem unsplit_summing : summing.Unsplit := by
  intro input output other
  revert input output other
  decide +kernel

/-- Two outputs that keep one input each may be named in any order.  Two outputs that exchange an
input may not. -/
theorem orderFree_iff_not_movesInput_summing :
    OrderFree summing
        [⟨⟨"0", 0, by decide +kernel, by decide +kernel, by decide +kernel⟩, .several [3, 5]⟩,
          ⟨⟨"1", 1, by decide +kernel, by decide +kernel, by decide +kernel⟩, .several [6, 7]⟩] ∧
      ¬ OrderFree summing
        [⟨⟨"0", 0, by decide +kernel, by decide +kernel, by decide +kernel⟩, .several [3, 7]⟩,
          ⟨⟨"1", 1, by decide +kernel, by decide +kernel, by decide +kernel⟩, .single 4⟩] := by
  constructor
  · refine (orderFree_iff_not_movesInput _ _ unsplit_summing (by decide)).mpr (Or.inr ?_)
    rintro ⟨r, hr, previous, hprevious, input, hwants, hother, hfeeds⟩
    rw [OutputRequest.Wants] at hwants
    revert input
    simp only [List.mem_cons, List.not_mem_nil, or_false] at hr hprevious
    obtain rfl | rfl := hr <;> obtain rfl | rfl := hprevious
    all_goals first
      | exact absurd rfl hother
      | decide +kernel
  · intro hfree
    rcases (orderFree_iff_not_movesInput _ _ unsplit_summing (by decide)).mp hfree with
      hsplit | hmoves
    · refine hsplit ?_
      intro input output other
      simp only [Requested, List.mem_cons, List.not_mem_nil, or_false, exists_eq_or_imp,
        exists_eq_left, forall_eq_or_imp, forall_eq, OutputRequest.output, OutputRequest.Wants,
        InputSpec.wanted]
      revert input output other
      decide +kernel
    · refine hmoves ⟨_, List.mem_cons_self, _, List.mem_cons_of_mem _ List.mem_cons_self, 7, ?_⟩
      rw [OutputRequest.Wants]
      decide +kernel

/-- Input 3 moves from output 1 to output 0: the matrix is unsplit, but with output 0 in front the
configuration is refused. -/
theorem not_orderFree_of_moved_input :
    (⟨fun output => if output = 1 then 0b1000 else 0, fun _ => false⟩ : IBlock).Unsplit ∧
    ¬ OrderFree ⟨fun output => if output = 1 then 0b1000 else 0, fun _ => false⟩
      [⟨⟨"0", 0, by decide +kernel, by decide +kernel, by decide +kernel⟩, .single 3⟩,
        ⟨⟨"1", 1, by decide +kernel, by decide +kernel, by decide +kernel⟩, .unconnected⟩] := by
  have hone (input : Fin 32) (output : Fin 16)
      (h : (⟨fun output => if output = 1 then 0b1000 else 0, fun _ => false⟩ : IBlock).Feeds
        input output) : output = 1 := by
    by_contra hne
    simp [Feeds, hne] at h
  have hunsplit : (⟨fun output => if output = 1 then 0b1000 else 0,
      fun _ => false⟩ : IBlock).Unsplit := by
    intro input output other h h'
    rw [hone input output h, hone input other h']
  refine ⟨hunsplit, not_orderFree_of_movesInput hunsplit ?_ ?_⟩
  · have hzero (input : Fin 32) (output : Fin 16)
        (h : Requested ⟨fun output => if output = 1 then 0b1000 else 0, fun _ => false⟩
          [⟨⟨"0", 0, by decide +kernel, by decide +kernel, by decide +kernel⟩, .single 3⟩,
            ⟨⟨"1", 1, by decide +kernel, by decide +kernel, by decide +kernel⟩, .unconnected⟩]
          input output) : output = 0 := by
      simp only [Requested, List.mem_cons, List.not_mem_nil, or_false, exists_eq_or_imp,
        exists_eq_left, forall_eq_or_imp, forall_eq, OutputRequest.output, OutputRequest.Wants,
        InputSpec.wanted, and_false] at h
      rcases h with ⟨h, -⟩ | ⟨⟨-, h⟩, hfeeds⟩
      · exact h.symm
      · exact absurd (hone input output hfeeds).symm h
    intro input output other h h'
    rw [hzero input output h, hzero input other h']
  · refine ⟨_, List.mem_cons_self, _, List.mem_cons_of_mem _ List.mem_cons_self, 3, ?_, ?_, ?_⟩
    · exact List.mem_cons_self
    · decide
    · decide

end Object

end Lucidac.IBlock
