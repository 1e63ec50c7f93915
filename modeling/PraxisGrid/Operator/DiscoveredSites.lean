/-
PraxisGrid/Operator/DiscoveredSites.lean

The resource names of discovered sites.

A site's resource is named after its network and the site, joined by a hyphen.  The names of
networks and sites may have hyphens too, so two sites share a name exactly when a part between
hyphens ends the name of one network and starts that of the other's site
(`discovered_names_differ_iff`).
-/
import PraxisGrid.Gateway.Descriptor

namespace PraxisGrid.Operator

open Text Gateway List

/-- Lower case, hyphens for everything that is no letter or digit, and none at the ends. -/
def sanitise (text : List Char) : List Char :=
  ((text.map fun ch => if isAlphanumeric ch then ch.toLower else '-').dropWhile
    (· == '-')).rdropWhile (· == '-')

def discoveredSiteK8sName (networkName siteId : String) : String :=
  let net := sanitise networkName.toList
  let site := sanitise siteId.toList
  let candidate :=
    match net.isEmpty, site.isEmpty with
    | false, false => net ++ '-' :: site
    | false, true => net
    | true, false => site
    | true, true => "discovered-site".toList
  String.ofList (candidate.take 253)

/-- A name of a resource that Kubernetes accepts, without the periods it may have. -/
def isK8sName (name : String) : Bool :=
  name.toList ≠ [] && name.toList.length ≤ 253 && name.toList.head?.any isLabelEdge
    && name.toList.getLast?.any isLabelEdge && name.toList.all fun ch => isLabelEdge ch || ch = '-'

/-! ### Names of labels -/

theorem toLower_of_labelEdge {ch : Char} (h : isLabelEdge ch = true) : ch.toLower = ch := by
  apply dif_neg
  rintro ⟨hlw, hup⟩
  simp only [isLabelEdge, isDigit, Bool.or_eq_true, Bool.and_eq_true, decide_eq_true_eq, Char.le_def,
    ge_iff_le, UInt32.le_iff_toNat_le, Char.reduceVal, UInt32.reduceToNat] at h hlw hup
  omega

/-- What is known of a label: where it starts and ends, and its characters. -/
theorem label_spec {value : String} (h : isLabel value = true) :
    value.toList.length ≤ 63
      ∧ (∃ first rest, value.toList = first :: rest ∧ isLabelEdge first = true)
      ∧ (∃ last, value.toList.getLast? = some last ∧ isLabelEdge last = true)
      ∧ ∀ ch ∈ value.toList, isLabelEdge ch = true ∨ ch = '-' := by
  simp only [isLabel, Bool.and_eq_true, Bool.or_eq_true, decide_eq_true_eq, all_eq_true] at h
  obtain ⟨⟨⟨⟨-, hle⟩, hhd⟩, hls⟩, hall⟩ := h
  obtain ⟨first, hfr, hed⟩ := (Option.any_eq_true _ _).mp hhd
  obtain ⟨rest, hrs⟩ := head?_eq_some_iff.mp hfr
  exact ⟨hle, ⟨first, rest, hrs, hed⟩, (Option.any_eq_true _ _).mp hls, hall⟩

theorem sanitise_label {value : String} (h : isLabel value = true) :
    sanitise value.toList = value.toList := by
  obtain ⟨-, ⟨first, rest, hrs, hfr⟩, ⟨last, hls, hed⟩, hall⟩ := label_spec h
  have hmap : (value.toList.map fun ch => if isAlphanumeric ch then ch.toLower else '-')
      = value.toList := by
    rw [map_congr_left, map_id]
    intro ch hch
    rcases hall ch hch with hed | rfl
    · have hal : isAlphanumeric ch = true := by
        rw [isAlphanumeric, Bool.or_comm (isDigit ch)]
        exact Bool.or_eq_true_iff.mpr (.inl hed)
      rw [if_pos hal, toLower_of_labelEdge hed, id]
    · rfl
  have hst : value.toList.dropWhile (· == '-') = value.toList := by
    rw [hrs, dropWhile_cons_of_neg]
    intro heq
    rw [beq_iff_eq.mp heq] at hfr
    cases hfr
  rw [sanitise, hmap, hst, rdropWhile_eq_self_iff]
  intro hne heq
  rw [getLast?_eq_some_getLast hne, Option.some.injEq] at hls
  rw [← hls, beq_iff_eq.mp heq] at hed
  cases hed

theorem toList_discoveredSiteK8sName {network site : String} (hnet : isLabel network = true)
    (hst : isLabel site = true) :
    (discoveredSiteK8sName network site).toList = network.toList ++ '-' :: site.toList := by
  obtain ⟨hlen, ⟨_, _, hcn, -⟩, -⟩ := label_spec hnet
  obtain ⟨hlen', ⟨_, _, hcn', -⟩, -⟩ := label_spec hst
  have htk : (network.toList ++ '-' :: site.toList).take 253
      = network.toList ++ '-' :: site.toList := by
    apply take_of_length_le
    rw [length_append, length_cons]
    omega
  rw [discoveredSiteK8sName, sanitise_label hnet, sanitise_label hst, String.toList_ofList]
  rw [hcn, hcn'] at htk ⊢
  exact htk

theorem isK8sName_discovered {network site : String} (hnet : isLabel network = true)
    (hst : isLabel site = true) : isK8sName (discoveredSiteK8sName network site) = true := by
  obtain ⟨hlen, ⟨first, rest, hcn, hfr⟩, -, hall⟩ := label_spec hnet
  obtain ⟨hlen', -, ⟨last, hls, hed⟩, hall'⟩ := label_spec hst
  rw [isK8sName, toList_discoveredSiteK8sName hnet hst]
  simp only [Bool.and_eq_true, decide_eq_true_eq, all_eq_true, Bool.or_eq_true]
  refine ⟨⟨⟨⟨by simp, ?_⟩, ?_⟩, ?_⟩, ?_⟩
  · rw [length_append, length_cons]
    omega
  · rw [hcn]
    exact hfr
  · rw [getLast?_append, getLast?_cons, hls]
    exact hed
  · intro ch hch
    rcases mem_append.mp hch with hch | hch
    · exact hall ch hch
    · rcases mem_cons.mp hch with rfl | hch
      · exact .inr rfl
      · exact hall' ch hch

/-- A part between hyphens ends the name of the second network, or starts that of the first site. -/
def Overlaps (network site network' site' : String) : Prop :=
  ∃ part, network'.toList = network.toList ++ '-' :: part ∧ site.toList = part ++ '-' :: site'.toList

/-- **The names of discovered sites**, from labels: they are names of resources, and those of two
different sites differ unless the sites overlap. -/
theorem discovered_names_differ_iff {network site network' site' : String}
    (hnetwork : isLabel network = true) (hsite : isLabel site = true)
    (hnetwork' : isLabel network' = true) (hsite' : isLabel site' = true)
    (hne : (network, site) ≠ (network', site')) :
    isK8sName (discoveredSiteK8sName network site) = true
      ∧ (discoveredSiteK8sName network site ≠ discoveredSiteK8sName network' site' ↔
        ¬ (Overlaps network site network' site' ∨ Overlaps network' site' network site)) := by
  refine ⟨isK8sName_discovered hnetwork hsite, not_congr ?_⟩
  rw [← String.toList_inj, toList_discoveredSiteK8sName hnetwork hsite,
    toList_discoveredSiteK8sName hnetwork' hsite', List.append_eq_append_iff]
  -- without a part between them the two are one site
  have hsm (hnet : network = network') (hsite : site.toList = site'.toList) : False :=
    hne (by rw [hnet, String.toList_inj.mp hsite])
  constructor
  · rintro (⟨between, hnet, hrs⟩ | ⟨between, hnet, hrs⟩)
    · rcases List.cons_eq_append_iff.mp hrs with ⟨rfl, htl⟩ | ⟨part, rfl, htl⟩
      · rw [List.append_nil, String.toList_inj] at hnet
        exact (hsm hnet.symm (List.cons.inj htl).2.symm).elim
      · exact .inl ⟨part, hnet, htl⟩
    · rcases List.cons_eq_append_iff.mp hrs with ⟨rfl, htl⟩ | ⟨part, rfl, htl⟩
      · rw [List.append_nil, String.toList_inj] at hnet
        exact (hsm hnet (List.cons.inj htl).2).elim
      · exact .inr ⟨part, hnet, htl⟩
  · rintro (⟨part, hnet, hrs⟩ | ⟨part, hnet, hrs⟩)
    · exact .inl ⟨'-' :: part, hnet, congrArg _ hrs⟩
    · exact .inr ⟨'-' :: part, hnet, congrArg _ hrs⟩

theorem discovered_names_differ_iff_east :
    discoveredSiteK8sName "grid" "east" ≠ discoveredSiteK8sName "grid" "west" := by
  apply (discovered_names_differ_iff rfl rfl rfl rfl (by decide)).2.mpr
  rintro (⟨part, hnet, -⟩ | ⟨part, hnet, -⟩)
  · exact absurd (congrArg List.length hnet) (by simp)
  · exact absurd (congrArg List.length hnet) (by simp)

/-- A hyphen in the network's name, or in the site's. -/
theorem discovered_names_collide :
    discoveredSiteK8sName "a-b" "c" = discoveredSiteK8sName "a" "b-c" := rfl

end PraxisGrid.Operator
