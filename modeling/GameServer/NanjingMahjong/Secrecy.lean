import GameServer.NanjingMahjong.Model.TableFrameSink
/-!
# Nanjing mahjong — concealed tiles

Two tables look the same to a player when they differ in the other
players' concealed tiles and the wall only. The messages about another
player's draw and flowers are then the same; the scene and the offers of
another player's own turn are the same exactly where the tables agree on
the tile that player has drawn and on what he is offered.
-/

namespace GameServer.NanjingMahjong

/-- What a player sees of two tables is the same: all that is shown, his
own hand and offers, how many tiles the others hold and their flowers,
which are laid down. The tile provided is concealed only while another
player holds it as the tile he has drawn. -/
structure SameView (p : Chair) (s t : Sink) : Prop where
  shown : s.toShown = t.toShown
  hand : s.cardIndex p = t.cardIndex p
  counts : ∀ q, getCardCount (s.cardIndex q) = getCardCount (t.cardIndex q)
  flowers : ∀ q i, maxNormal ≤ i → i < maxIndex → s.cardIndex q i = t.cardIndex q i
  response : s.response p = t.response p
  userAction : s.userAction p = t.userAction p
  gangPaiResult : s.gangPaiResult p = t.gangPaiResult p
  tingPaiResult : s.tingPaiResult p = t.tingPaiResult p
  drawn : s.sendCardUser = some p → s.sendCardData = t.sendCardData
  provided : ¬ (s.sendCardStatus = true ∧ s.sendCardUser ≠ some p) → s.provideCard = t.provideCard

/-- The messages to a player that others' tiles could show in. -/
structure SameMessages (p : Chair) (s t : Sink) : Prop where
  scene : ∀ gameStatus, s.onEventSendGameScene p gameStatus = t.onEventSendGameScene p gameStatus
  draw : ∀ q direction, q ≠ p →
    (sendCardData s q direction).map (fun w => w.2 p) =
      (sendCardData t q direction).map fun w => w.2 p
  buHua : ∀ q, q ≠ p → (s.estimatUserBuHua q).sentTo p = (t.estimatUserBuHua q).sentTo p
  turn : ∀ q, s.currentUser = some q → q ≠ p → ∀ afterDraw,
    (s.turnNotify afterDraw).filter (fun m => m.operateUser = q) =
      (t.turnNotify afterDraw).filter fun m => m.operateUser = q

/-- The same mask is offered to a player, with the same kongs and the same
ready list where they go out with it. -/
structure SameOffers (q : Chair) (s t : Sink) : Prop where
  userAction : s.userAction q = t.userAction q
  gangPaiResult : s.userAction q ≠ wikNull → s.gangPaiResult q = t.gangPaiResult q
  tingPaiResult : s.userAction q &&& wikTing ≠ 0 → s.tingPaiResult q = t.tingPaiResult q

/-- What the messages show of the concealed tiles is the same: the tile
another player has drawn, and what he is offered on his own turn. -/
structure SameLeaks (p : Chair) (s t : Sink) : Prop where
  drawn : s.sendCardStatus = true → s.sendCardUser ≠ some p →
    s.sendCardData = t.sendCardData ∧ s.provideCard = t.provideCard
  turn : ∀ q, s.currentUser = some q → q ≠ p → SameOffers q s t

variable {p q : Chair} {s t : Sink}

/-! ## Draws and flowers -/

theorem sendCardData_to_other (direction : UInt8) (hne : q ≠ p) :
    (sendCardData s q direction).map (fun w => w.2 p) =
      if s.leftCardCount ≤ 0 then none else some ⟨q, 0, direction⟩ := by
  unfold sendCardData
  split
  · rfl
  · simp [Ne.symm hne]

theorem distillHardHuaCard_congr {hand hand' : Hand}
    (h : ∀ i, maxNormal ≤ i → i < maxIndex → hand i = hand' i) :
    distillHardHuaCard hand = distillHardHuaCard hand' := by
  unfold distillHardHuaCard tilesFrom
  refine List.flatMap_congr fun i hi => ?_
  obtain ⟨h₁, h₂⟩ := List.mem_range'_1.1 hi
  rw [h i h₁ (by omega)]

theorem index_of_mem_distillHardHuaCard {hand : Hand} {card : UInt8}
    (h : card ∈ distillHardHuaCard hand) :
    maxNormal ≤ switchToCardIndex card ∧ switchToCardIndex card < maxIndex := by
  obtain ⟨i, hi, hc⟩ := List.mem_flatMap.1 h
  rw [(List.mem_replicate.1 hc).2]
  have hall : ∀ i ∈ List.range' maxNormal (maxIndex - maxNormal),
      maxNormal ≤ switchToCardIndex (switchToCardData i) ∧
        switchToCardIndex (switchToCardData i) < maxIndex := by decide +kernel
  exact hall i hi

/-- Whether tiles can be taken out depends on how many there are of each. -/
theorem isSome_removeCard_congr : ∀ (cards : List UInt8) {hand hand' : Hand},
    (∀ c ∈ cards, hand (switchToCardIndex c) = hand' (switchToCardIndex c)) →
      (removeCard cards hand).isSome = (removeCard cards hand').isSome
  | [], _, _, _ => rfl
  | card :: cards, hand, hand', h => by
      have hcard := h card List.mem_cons_self
      simp only [removeCard, hcard]
      split
      · rfl
      · refine isSome_removeCard_congr cards fun c hc => ?_
        by_cases he : switchToCardIndex c = switchToCardIndex card
        · simp [he]
        · simpa [he] using h c (List.mem_cons_of_mem _ hc)

/-- A replacement tells the others the flowers, when they can be taken out
of the hand. -/
theorem sendBuHua_to_other (first : Bool) (card : Sink → UInt8 × Sink) (hne : q ≠ p) :
    (s.sendBuHua q first card).sentTo p =
      let huas := distillHardHuaCard (s.cardIndex q)
      if (removeCard huas (s.cardIndex q)).isSome then
        some (Sink.buHuaMessage q first huas [] p)
      else none := by
  cases hremove : removeCard (distillHardHuaCard (s.cardIndex q)) (s.cardIndex q) with
  | none => simp [Sink.sendBuHua, hremove, Sink.BuHua.sentTo]
  | some hand =>
      simp [Sink.sendBuHua, hremove, Sink.BuHua.sentTo, Sink.buHuaMessage, Ne.symm hne]

theorem sendBuHua_congr (first : Bool) (card : Sink → UInt8 × Sink) (hne : q ≠ p)
    (h : ∀ i, maxNormal ≤ i → i < maxIndex → s.cardIndex q i = t.cardIndex q i) :
    (s.sendBuHua q first card).sentTo p = (t.sendBuHua q first card).sentTo p := by
  have hremove := isSome_removeCard_congr (distillHardHuaCard (t.cardIndex q)) fun c hc =>
    h _ (index_of_mem_distillHardHuaCard hc).1 (index_of_mem_distillHardHuaCard hc).2
  simp only [sendBuHua_to_other first card hne, distillHardHuaCard_congr h, hremove]

theorem SameView.draw (h : SameView p s t) (direction : UInt8) (hne : q ≠ p) :
    (sendCardData s q direction).map (fun w => w.2 p) =
      (sendCardData t q direction).map fun w => w.2 p := by
  rw [sendCardData_to_other direction hne, sendCardData_to_other direction hne, h.shown]

theorem SameView.buHua (h : SameView p s t) (hne : q ≠ p) :
    (s.estimatUserBuHua q).sentTo p = (t.estimatUserBuHua q).sentTo p := by
  have hhua := distillHardHuaCard_congr (h.flowers q)
  have hover : s.firstBuHuaOver = t.firstBuHuaOver := congrArg Shown.firstBuHuaOver h.shown
  have hleft : s.leftCardCount = t.leftCardCount := congrArg Shown.leftCardCount h.shown
  simp only [Sink.estimatUserBuHua, Sink.isFirstBuHuaOver, hhua, hover, hleft]
  -- the branches are told apart by what is shown and by the flowers
  split_ifs
  · rfl
  · exact sendBuHua_congr false _ hne (h.flowers q)
  · rfl
  · exact sendBuHua_congr true _ hne (h.flowers q)
  · rfl

/-! ## The scene -/

theorem SameView.statusPlay (h : SameView p s t) :
    s.statusPlay p =
      { t.statusPlay p with sendCardData := if s.sendCardStatus then s.sendCardData else 0 } := by
  obtain ⟨shown, cardIndex, _⟩ := s
  obtain ⟨shown', cardIndex', _⟩ := t
  obtain rfl : shown = shown' := h.shown
  have hhand : cardIndex p = cardIndex' p := h.hand
  have hcounts : ∀ q, getCardCount (cardIndex q) = getCardCount (cardIndex' q) := h.counts
  simp only [Sink.statusPlay, hhand, hcounts]

/-- The offers sent after the scene, apart from the tile provided. -/
theorem SameView.sceneNotify (h : SameView p s t) :
    s.sceneNotify p = { t.sceneNotify p with actionCard := s.provideCard } := by
  simp only [Sink.sceneNotify, Sink.tingStream, h.response, h.userAction, h.gangPaiResult,
    h.tingPaiResult, h.shown]

/-- The tile last drawn goes out as it is in both tables. -/
theorem SameView.sendCardData (h : SameView p s t) (hleak : SameLeaks p s t) :
    (if s.sendCardStatus then s.sendCardData else 0) =
      if t.sendCardStatus then t.sendCardData else 0 := by
  have hstatus : s.sendCardStatus = t.sendCardStatus := congrArg Shown.sendCardStatus h.shown
  rw [← hstatus]
  split
  case isFalse => rfl
  case isTrue hs =>
      by_cases hp : s.sendCardUser = some p
      · exact h.drawn hp
      · exact (hleak.drawn hs hp).1

theorem SameView.provideCard (h : SameView p s t) (hleak : SameLeaks p s t) :
    s.provideCard = t.provideCard := by
  by_cases hs : s.sendCardStatus = true ∧ s.sendCardUser ≠ some p
  · exact (hleak.drawn hs.1 hs.2).2
  · exact h.provided hs

/-- The scene is the same where the tables agree on the tile drawn. -/
theorem SameView.scene (h : SameView p s t) (hleak : SameLeaks p s t) (gameStatus : UInt8) :
    s.onEventSendGameScene p gameStatus = t.onEventSendGameScene p gameStatus := by
  have hplay : s.statusPlay p = t.statusPlay p := by
    rw [h.statusPlay, h.sendCardData hleak]
    rfl
  have hnotify : s.sceneNotify p = t.sceneNotify p := by
    rw [h.sceneNotify, h.provideCard hleak]
    rfl
  simp only [Sink.onEventSendGameScene, hplay, hnotify, h.shown]

theorem SameMessages.drawn (h : SameMessages p s t) (hview : SameView p s t)
    (hs : s.sendCardStatus = true) :
    s.sendCardData = t.sendCardData ∧ s.provideCard = t.provideCard := by
  have hstatus : t.sendCardStatus = true := by rw [← hview.shown]; exact hs
  have hscene := h.scene Sink.gsMjPlay
  have hplay : s.statusPlay p = t.statusPlay p ∧ s.sceneNotify p = t.sceneNotify p := by
    simpa [Sink.onEventSendGameScene, Sink.gsMjPlay, Sink.gsMjFree, Sink.gsMjDice] using hscene
  constructor
  · simpa [Sink.statusPlay, hs, hstatus] using congrArg StatusPlay.sendCardData hplay.1
  · exact congrArg OperateNotify.actionCard hplay.2

/-! ## Offers -/

/-- The message about a player, when there is one. -/
theorem filter_sendOperateNotify (centerCard : UInt8) (kind : EstimatKind) (q : Chair) :
    (s.sendOperateNotify centerCard kind).filter (fun m => m.operateUser = q) =
      if s.userAction q ≠ wikNull then [s.operateNotify centerCard kind q] else [] := by
  have hone : ∀ q : Chair, (List.finRange gamePlayer).filter (fun i => i = q) = [q] := by decide
  have hboth : (List.finRange gamePlayer).filter
      (fun i => decide (i = q) && decide (s.userAction i ≠ wikNull)) =
        [q].filter fun i => s.userAction i ≠ wikNull := by
    rw [← hone q, List.filter_filter]
    exact List.filter_congr fun i _ => Bool.and_comm _ _
  have hmap : (s.sendOperateNotify centerCard kind).filter (fun m => m.operateUser = q) =
      ([q].filter fun i => s.userAction i ≠ wikNull).map (s.operateNotify centerCard kind) := by
    rw [Sink.sendOperateNotify, List.filter_map, List.filter_filter, ← hboth]
    rfl
  rw [hmap, List.filter_singleton]
  by_cases h : s.userAction q = wikNull <;> simp [h]

/-- A player's offers on his own turn go out with the tile provided or
without one. -/
theorem filter_turnNotify (afterDraw : Bool) (q : Chair) :
    (s.turnNotify afterDraw).filter (fun m => m.operateUser = q) =
      if s.userAction q ≠ wikNull then
        [if afterDraw then s.operateNotify s.provideCard .sendCard q
          else s.operateNotify 0 .chiPengCard q]
      else [] := by
  cases afterDraw <;> exact filter_sendOperateNotify _ _ q

theorem SameOffers.operateNotify (h : SameOffers q s t) (hshown : s.toShown = t.toShown)
    (haction : s.userAction q ≠ wikNull) (centerCard : UInt8) (kind : EstimatKind) :
    s.operateNotify centerCard kind q = t.operateNotify centerCard kind q := by
  have hting : s.tingStream q (t.userAction q) = t.tingStream q (t.userAction q) := by
    unfold Sink.tingStream
    rw [← h.userAction]
    split
    case isTrue ht => rw [h.tingPaiResult ht]
    case isFalse => rfl
  simp only [Sink.operateNotify, hting, h.userAction, h.gangPaiResult haction, hshown]

/-- Another player's own turn looks the same where he is offered the
same. -/
theorem SameView.turn (h : SameView p s t) (hleak : SameLeaks p s t)
    (hturn : s.currentUser = some q) (hne : q ≠ p) (afterDraw : Bool) :
    (s.turnNotify afterDraw).filter (fun m => m.operateUser = q) =
      (t.turnNotify afterDraw).filter fun m => m.operateUser = q := by
  have hoffers := hleak.turn q hturn hne
  rw [filter_turnNotify, filter_turnNotify, ← hoffers.userAction, ← h.provideCard hleak]
  split
  case isTrue haction => simp only [hoffers.operateNotify h.shown haction]
  case isFalse => rfl

/-- The message about a player's own turn shows what he is offered. -/
theorem SameMessages.offers (h : SameMessages p s t) (hturn : s.currentUser = some q)
    (hne : q ≠ p) : SameOffers q s t := by
  have hmessages := h.turn q hturn hne false
  rw [filter_turnNotify, filter_turnNotify] at hmessages
  by_cases hs : s.userAction q = wikNull
  · have ht : t.userAction q = wikNull := by
      by_contra ht
      simp [hs, ht] at hmessages
    exact ⟨hs.trans ht.symm, fun ha => absurd hs ha, fun ha => absurd hs (by
      rintro hnull
      exact ha (by rw [hnull]; rfl))⟩
  · have ht : t.userAction q ≠ wikNull := by
      intro ht
      simp [hs, ht] at hmessages
    have heq : s.operateNotify 0 .chiPengCard q = t.operateNotify 0 .chiPengCard q := by
      simpa [hs, ht] using hmessages
    have haction : s.userAction q = t.userAction q := congrArg OperateNotify.actionMask heq
    refine ⟨haction, fun _ => congrArg OperateNotify.gangPaiResult heq, fun ha => ?_⟩
    have hting := congrArg OperateNotify.tingPaiResult heq
    simp only [Sink.operateNotify, Sink.tingStream, ← haction, if_pos ha] at hting
    exact Option.some.inj hting

/-! ## The messages as a whole -/

theorem SameView.messages (h : SameView p s t) (hleak : SameLeaks p s t) : SameMessages p s t where
  scene := h.scene hleak
  draw _ direction hne := h.draw direction hne
  buHua _ hne := h.buHua hne
  turn _ hturn hne afterDraw := h.turn hleak hturn hne afterDraw

/-- **Concealed tiles stay concealed, apart from the tile drawn and the
offers.** Of two tables that a player should not tell apart, the scene for
him, the draws and flowers of the others and the offers of their own turns
are the same exactly when the tables agree on the tile another player has
drawn and holds, and on what the player whose turn it is is offered. -/
theorem messages_agree_iff (p : Chair) (s t : Sink) (hview : SameView p s t) :
    SameMessages p s t ↔ SameLeaks p s t := by
  constructor
  · intro h
    exact ⟨fun hs _ => h.drawn hview hs, fun _ hturn hne => h.offers hturn hne⟩
  · exact hview.messages

/-! Two walls that differ in the two tiles next to be drawn, and the draw
of the banker after the deal. -/

/-- A wall: the array from some place on, and then its beginning. -/
def wall : List UInt8 := cardDataArray.rotateLeft 88

def wallSwapped : List UInt8 := (wall.set 91 (wall.getD 90 0)).set 90 (wall.getD 91 0)

theorem dealt_cardIndex :
    (dealt 1 0 1 wall).cardIndex = (dealt 1 0 1 wallSwapped).cardIndex := by
  have hcards : ∀ q : Chair,
      (wall.drop (144 - (maxCount - 1) * (q.val + 1))).take (maxCount - 1) =
        (wallSwapped.drop (144 - (maxCount - 1) * (q.val + 1))).take (maxCount - 1) := by
    decide +kernel
  funext q
  exact congrArg handOf (hcards q)

/-- Two walls that deal the same hands look the same to every player. -/
theorem sameView_dealt {cellScore : ℤ} {siceCount : UInt16} {banker : Chair}
    {tiles tiles' : List UInt8}
    (h : (dealt cellScore siceCount banker tiles).cardIndex =
      (dealt cellScore siceCount banker tiles').cardIndex) (p : Chair) :
    SameView p (dealt cellScore siceCount banker tiles)
      (dealt cellScore siceCount banker tiles') where
  shown := rfl
  hand := by rw [h]
  counts q := by rw [h]
  flowers q i _ _ := by rw [h]
  response := rfl
  userAction := rfl
  gangPaiResult := rfl
  tingPaiResult := rfl
  drawn _ := rfl
  provided _ := rfl

/-- The theorem at the two deals, where no tile is drawn yet. -/
theorem messages_agree_dealt :
    SameMessages 0 (dealt 1 0 1 wall) (dealt 1 0 1 wallSwapped) :=
  (messages_agree_iff 0 _ _ (sameView_dealt dealt_cardIndex 0)).2
    { drawn := fun hs => absurd hs Bool.false_ne_true
      turn := fun _ _ _ => ⟨rfl, fun _ => rfl, fun _ => rfl⟩ }

def bankerDrawn (tiles : List UInt8) : Sink :=
  let card := tiles.getD 91 0
  { (dealt 1 0 1 tiles).addCard 1 card with
    outCardData := 0
    outCardUser := none
    sendCardStatus := true
    sendCardCount := 1
    leftCardCount := 91
    sendCardData := card
    currentUser := some 1
    provideUser := some 1
    provideCard := card
    sendCardUser := some 1
    sendCardOver := fun _ => false }

theorem sendCardData_dealt (tiles : List UInt8) :
    (sendCardData (dealt 1 0 1 tiles) 1 0).map Prod.fst = some (bankerDrawn tiles) := by
  have hleft : (92 - 1 : UInt8) = 91 := by decide
  have hlast : (91 : UInt8).toNat = 91 := by decide
  simp [sendCardData, Sink.getSendCardData, Sink.takeLast, Sink.addCard, dealt, bankerDrawn, hleft,
    hlast]

theorem bankerDrawn_cardIndex (tiles : List UInt8) :
    (bankerDrawn tiles).cardIndex = Function.update (dealt 1 0 1 tiles).cardIndex 1
      (((dealt 1 0 1 tiles).cardIndex 1).add (tiles.getD 91 0)) := rfl

theorem bankerDrawn_sendCard (tiles : List UInt8) :
    (bankerDrawn tiles).sendCardStatus = true ∧
      (bankerDrawn tiles).sendCardData = tiles.getD 91 0 := ⟨rfl, rfl⟩

/-- Two deals of the same hands look the same to the player in chair 0
after a draw that changes neither the count nor the flowers otherwise. -/
theorem sameView_bankerDrawn {tiles tiles' : List UInt8}
    (h : (dealt 1 0 1 tiles).cardIndex = (dealt 1 0 1 tiles').cardIndex)
    (hcount : ∀ q, getCardCount ((bankerDrawn tiles).cardIndex q) =
      getCardCount ((bankerDrawn tiles').cardIndex q))
    (hflower : ∀ q i, maxNormal ≤ i → i < maxIndex →
      (bankerDrawn tiles).cardIndex q i = (bankerDrawn tiles').cardIndex q i) :
    SameView 0 (bankerDrawn tiles) (bankerDrawn tiles') where
  shown := rfl
  hand := by
    rw [bankerDrawn_cardIndex, bankerDrawn_cardIndex, h]
    rfl
  counts := hcount
  flowers := hflower
  response := rfl
  userAction := rfl
  gangPaiResult := rfl
  tingPaiResult := rfl
  drawn h := absurd (Option.some.inj h) (by decide)
  provided h := absurd ⟨rfl, fun h => absurd (Option.some.inj h) (by decide)⟩ h

/-- Two shuffles that differ in the next two tiles deal the same hands. The
banker draws, and the player in chair 0 comes back: he has seen the same of
both tables, and his scene tells him the banker's tile. -/
theorem scene_shows_drawn_tile :
    wall.Perm cardDataArray ∧ wallSwapped.Perm cardDataArray ∧
      (sendCardData (dealt 1 0 1 wall) 1 0).map Prod.fst = some (bankerDrawn wall) ∧
      (sendCardData (dealt 1 0 1 wallSwapped) 1 0).map Prod.fst = some (bankerDrawn wallSwapped) ∧
      SameView 0 (bankerDrawn wall) (bankerDrawn wallSwapped) ∧
      ¬ SameMessages 0 (bankerDrawn wall) (bankerDrawn wallSwapped) := by
  have hview : SameView 0 (bankerDrawn wall) (bankerDrawn wallSwapped) := by
    refine sameView_bankerDrawn dealt_cardIndex (by decide +kernel) ?_
    have hflower : ∀ q : Chair, ∀ i < maxIndex, maxNormal ≤ i →
        (bankerDrawn wall).cardIndex q i = (bankerDrawn wallSwapped).cardIndex q i := by
      decide +kernel
    exact fun q i hle hlt => hflower q i hlt hle
  refine ⟨by decide +kernel, by decide +kernel, sendCardData_dealt wall,
    sendCardData_dealt wallSwapped, hview, fun h => ?_⟩
  have hsame := (h.drawn hview (bankerDrawn_sendCard wall).1).1
  exact absurd hsame (by decide +kernel)

end GameServer.NanjingMahjong
