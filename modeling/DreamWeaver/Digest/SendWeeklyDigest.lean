import DreamWeaver.Foundations.Decimal
import DreamWeaver.Sharing.SharedLink
import Mathlib.Data.List.Sort

/-! # The weekly digest

`SendWeeklyDigestUseCase.execute` (`api/src/application/use-cases`) reads the stories and the moments of a user
in the last week, has a link made to one of them, and sends an email with it. The container gives it
`CreateShareLinkUseCase` to make the link, which makes links for the owner of what they lead to. The repositories,
the mailer, the clock and the source of random bytes are effects. -/

namespace DreamWeaver.Digest

open Stories Sharing Proc

/-! ## Days -/

/-- The time zone of a server: between milliseconds of UTC and of local time. -/
structure LocalZone where
  localTime : ℤ → ℤ
  utc : ℤ → ℤ

/-- `date.setDate(date.getDate() + days)`: as many days later on the local clock. -/
def LocalZone.addDays (zone : LocalZone) (date days : ℤ) : ℤ := zone.utc (zone.localTime date + days * 86400000)

/-! ## Effects -/

/-- `SharedLinkProps`, dates in milliseconds. The owner may be `undefined`. -/
structure SharedLinkProps where
  id : Text
  resourceId : Text
  ownerId : Option Text
  type : SharedLinkType
  token : Text
  maxViews : ℕ
  currentViews : ℕ
  expiresAt : ℤ
  createdAt : ℕ
  deriving DecidableEq, Repr

/-- An email: the arguments of `emailService.send`, `to` a recipient. -/
structure Email where
  recipient : Text
  subject : Text
  html : Text
  deriving DecidableEq, Repr

/-- What the use cases await, and what they ask the machine for. -/
inductive DigestEffect where
  /-- `new Date()` -/
  | clock
  /-- `randomBytes(size)` -/
  | randomBytes (size : ℕ)
  /-- `crypto.randomUUID()` -/
  | randomUUID
  /-- `storyRepository.findRecent(userId, limit)` -/
  | findRecent (userId : Text) (limit : ℕ)
  /-- `momentRepository.findByUserId(userId)` -/
  | findByUserId (userId : Text)
  /-- `storyRepository.findById(id)` -/
  | findStory (id : Text)
  /-- `momentRepository.findById(id)` -/
  | findMoment (id : Text)
  /-- `shareRepository.save(link)` -/
  | saveLink (link : SharedLinkProps)
  /-- `emailService.send(to, subject, html)` -/
  | send (email : Email)

/-- What an effect is replied with. -/
abbrev DigestEffect.Reply : DigestEffect → Type
  | .clock => ℕ
  | .randomBytes _ => List UInt8
  | .randomUUID => Text
  | .findRecent .. => List StoryProps
  | .findByUserId _ => List MomentProps
  | .findStory _ => Option StoryProps
  | .findMoment _ => Option MomentProps
  | .saveLink _ => Unit
  | .send _ => Bool

abbrev DigestProc := Proc DigestEffect DigestEffect.Reply

/-! ## Links -/

/-- The hexadecimal digit of a number below 16. -/
def hexDigit (n : UInt8) : CodeUnit := if n < 10 then 48 + n.toUInt16 else 87 + n.toUInt16

/-- `bytes.toString('hex')` -/
def toHex (bytes : List UInt8) : Text := bytes.flatMap fun byte => [hexDigit (byte / 16), hexDigit (byte % 16)]

variable (zone : LocalZone)

/-- `SharedLink.generate` -/
def SharedLink.generate (ownerId : Option Text) (resourceId : Text) (type : SharedLinkType)
    (maxViews expiresInDays : ℕ) : DigestProc SharedLinkProps := do
  let bytes ← (perform (DigestEffect.randomBytes 16) : DigestProc (List UInt8))
  let expiresAt ← (perform DigestEffect.clock : DigestProc ℕ)
  let id ← (perform DigestEffect.randomUUID : DigestProc Text)
  let createdAt ← (perform DigestEffect.clock : DigestProc ℕ)
  pure ⟨id, resourceId, ownerId, type, toHex bytes, maxViews, 0, zone.addDays expiresAt expiresInDays, createdAt⟩

/-- `CreateShareLinkRequest`; the owner is `undefined` where a caller does not give it. -/
structure CreateShareLinkRequest where
  ownerId : Option Text
  resourceId : Text
  type : SharedLinkType
  maxViews : Option ℕ
  expiresInDays : Option ℕ

/-- What a share link creator resolves with. -/
structure CreatedLink where
  url : Text
  expiresAt : ℤ

/-- `count || default` for a number that may be `undefined`. -/
def countOr (count : Option ℕ) (default : ℕ) : ℕ := if count.getD 0 = 0 then default else count.getD 0

/-- The error of a request by someone else than the owner. -/
def notAuthorized : SharedLinkType → JsError
  | .story => ⟨lit "Error", lit "Not authorized to share this story"⟩
  | .moment => ⟨lit "Error", lit "Not authorized to share this moment"⟩

/-- `if (!found || found.owner !== ownerId) throw`, `found` the owner of what was found. -/
def requireOwner (type : SharedLinkType) (found ownerId : Option Text) : DigestProc Unit :=
  match found with
  | none => throw (notAuthorized type)
  | some owner => if some owner ≠ ownerId then throw (notAuthorized type) else pure ()

/-- The check of the owner: what is to be shared is there, and is the owner's. -/
def authorize (request : CreateShareLinkRequest) : DigestProc Unit :=
  match request.type with
  | .story => do
    let story ← (perform (DigestEffect.findStory request.resourceId) : DigestProc (Option StoryProps))
    requireOwner .story (story.map StoryProps.ownerId) request.ownerId
  | .moment => do
    let moment ← (perform (DigestEffect.findMoment request.resourceId) : DigestProc (Option MomentProps))
    requireOwner .moment (moment.map MomentProps.userId) request.ownerId

/-- `process.env['PUBLIC_APP_URL'] || 'http://localhost:5173'` -/
def baseUrl (publicAppUrl : Text) : Text := if publicAppUrl = [] then lit "http://localhost:5173" else publicAppUrl

/-- `CreateShareLinkUseCase.execute` -/
def CreateShareLinkUseCase.execute (publicAppUrl : Text) (request : CreateShareLinkRequest) :
    DigestProc CreatedLink := do
  authorize request
  let link ← SharedLink.generate zone request.ownerId request.resourceId request.type (countOr request.maxViews 3)
    (countOr request.expiresInDays 2)
  let _ ← (perform (DigestEffect.saveLink link) : DigestProc Unit)
  pure ⟨baseUrl publicAppUrl ++ lit "/share/" ++ link.token, link.expiresAt⟩

/-! ## The digest -/

/-- `WeeklyDigestInput` -/
structure WeeklyDigestInput where
  userId : Text
  email : Text
  childName : Text

/-- `WeeklyDigestOutput` -/
structure WeeklyDigestOutput where
  sent : Bool
  storiesCount : ℕ
  highlightMoment : Option Text
  deriving DecidableEq, Repr

/-- The request to a `ShareLinkCreator`, which has no owner. -/
structure ShareLinkRequest where
  resourceId : Text
  type : SharedLinkType
  maxViews : Option ℕ
  expiresInDays : Option ℕ

/-- Not before another moment. -/
def NotBefore (a b : MomentProps) : Prop := b.createdAt ≤ a.createdAt

instance : DecidableRel NotBefore := fun a b => inferInstanceAs (Decidable (b.createdAt ≤ a.createdAt))

/-- `weeklyStories` -/
def weeklyStories (oneWeekAgo : ℤ) (stories : List StoryProps) : List StoryProps :=
  stories.filter fun story => oneWeekAgo ≤ story.createdAt

/-- `weeklyMoments`, the latest first. -/
def weeklyMoments (oneWeekAgo : ℤ) (moments : List MomentProps) : List MomentProps :=
  (moments.filter fun moment => oneWeekAgo ≤ moment.createdAt).insertionSort NotBefore

/-- `highlightType` and `highlightResourceId` -/
def highlight (story : StoryProps) (moments : List MomentProps) : SharedLinkType × Text :=
  match moments with
  | moment :: _ => (.moment, moment.id)
  | [] => (.story, story.id)

/-- `highlightMoment?.description || highlightStory?.title || 'A Magical Adventure'` -/
def highlightTitle (story : StoryProps) (moments : List MomentProps) : Text :=
  let description := (moments.head?.bind MomentProps.description).getD []
  if description ≠ [] then description
  else if story.title ≠ [] then story.title else lit "A Magical Adventure"

/-- `[...new Set(themes)]` -/
def distinct (themes : List Text) : List Text := themes.eraseDups

/-- `generateEmailHtml` -/
def generateEmailHtml (childName : Text) (storiesCount momentsCount : ℕ) (highlightTitle : Text)
    (themes : List Text) (highlightUrl : Text) : Text :=
  lit "
<!DOCTYPE html>
<html>
<head>
    <meta charset=\"utf-8\">
    <meta name=\"viewport\" content=\"width=device-width, initial-scale=1.0\">
    <title>" ++ childName ++ lit "'s Weekly Time Capsule</title>
    <style>
        body \x7b font-family: ui-sans-serif, system-ui, -apple-system, Segoe UI, Roboto, Helvetica, Arial; background: #0A0E1A; color: #E8EDF4; padding: 20px; \x7d
        .container \x7b max-width: 600px; margin: 0 auto; background: #141B2E; border-radius: 20px; padding: 32px; border: 1px solid rgba(255,255,255,0.08); \x7d
        h1 \x7b color: #B8A1FF; text-align: center; font-size: 28px; margin: 6px 0 24px; \x7d
        .badge \x7b display:inline-block; background: rgba(124,159,255,0.12); border: 1px solid rgba(124,159,255,0.25); color: #7C9FFF; padding: 6px 10px; border-radius: 999px; font-size: 12px; letter-spacing: 0.12em; text-transform: uppercase; \x7d
        .highlight \x7b background: linear-gradient(135deg, rgba(167,139,250,0.35) 0%, rgba(124,159,255,0.25) 100%); padding: 20px; border-radius: 16px; margin: 18px 0; border: 1px solid rgba(255,255,255,0.08); \x7d
        .stats \x7b display:flex; gap: 12px; margin: 18px 0; \x7d
        .stat \x7b flex:1; text-align: center; padding: 14px; background: rgba(255,255,255,0.04); border-radius: 16px; border: 1px solid rgba(255,255,255,0.08); \x7d
        .stat-number \x7b font-size: 36px; font-weight: 800; color: #E8EDF4; \x7d
        .stat-label \x7b font-size: 12px; color: #A8B3C7; letter-spacing: 0.08em; text-transform: uppercase; margin-top: 6px; \x7d
        .themes \x7b display: flex; gap: 10px; justify-content: center; flex-wrap: wrap; margin: 18px 0; \x7d
        .theme-tag \x7b background: rgba(167, 139, 250, 0.18); border: 1px solid rgba(167, 139, 250, 0.3); padding: 8px 14px; border-radius: 999px; font-size: 13px; color: #E8EDF4; \x7d
        .cta \x7b display:inline-block; background:#7C9FFF; color:#0A0E1A; text-decoration:none; font-weight:800; padding: 14px 18px; border-radius: 999px; \x7d
        .footer \x7b text-align: center; margin-top: 26px; color: #6B7A93; font-size: 12px; \x7d
    </style>
</head>
<body>
    <div class=\"container\">
        <div style=\"text-align:center;\"><span class=\"badge\">Weekly Time Capsule</span></div>
        <h1>✨ " ++ childName ++ lit "'s Week in Moments</h1>

        <div class=\"stats\">
            <div class=\"stat\">
                <div class=\"stat-number\">" ++ showNat storiesCount ++ lit "</div>
                <div class=\"stat-label\">Stories</div>
            </div>
            <div class=\"stat\">
                <div class=\"stat-number\">" ++ showNat momentsCount ++ lit "</div>
                <div class=\"stat-label\">Moments</div>
            </div>
        </div>

        <div class=\"highlight\">
            <h3 style=\"margin:0 0 8px;\">🌟 Moment of the Week</h3>
            <p style=\"font-size: 18px; margin:0 0 16px; color:#E8EDF4;\">\"" ++ highlightTitle ++ lit "\"</p>
            <div style=\"text-align:center;\">
                <a class=\"cta\" href=\"" ++ highlightUrl ++ lit "\">Open this moment</a>
            </div>
        </div>

        <h3 style=\"margin: 22px 0 10px;\">Favorite Themes</h3>
        <div class=\"themes\">
            " ++ ((distinct themes).take 3).flatMap (fun t => lit "<span class=\"theme-tag\">" ++ t ++ lit "</span>") ++
  lit "
        </div>

        <div class=\"footer\">
            <p>DreamWeaver - Sweet Dreams, Every Night</p>
            <p>This link expires in 48 hours and is limited to 3 plays.</p>
        </div>
    </div>
</body>
</html>
"

/-- What the digest does in a week with stories, of which `story` is the first. -/
def composeDigest (shareLinkCreator : ShareLinkRequest → DigestProc CreatedLink) (input : WeeklyDigestInput)
    (stories : List StoryProps) (story : StoryProps) (moments : List MomentProps) :
    DigestProc WeeklyDigestOutput := do
  let (highlightType, highlightResourceId) := highlight story moments
  let title := highlightTitle story moments
  let shareLink ← shareLinkCreator ⟨highlightResourceId, highlightType, some 3, some 2⟩
  let emailHtml := generateEmailHtml input.childName stories.length moments.length title
    (stories.map StoryProps.theme) shareLink.url
  let subject := lit "✨ " ++ input.childName ++ lit "'s Weekly Dreamweaver Time Capsule"
  let sent ← (perform (DigestEffect.send ⟨input.email, subject, emailHtml⟩) : DigestProc Bool)
  pure ⟨sent, stories.length, some title⟩

/-- `SendWeeklyDigestUseCase.execute` -/
def SendWeeklyDigestUseCase.execute (shareLinkCreator : ShareLinkRequest → DigestProc CreatedLink)
    (input : WeeklyDigestInput) : DigestProc WeeklyDigestOutput := do
  let now ← (perform DigestEffect.clock : DigestProc ℕ)
  let oneWeekAgo := zone.addDays now (-7)
  let found ← (perform (DigestEffect.findRecent input.userId 50) : DigestProc (List StoryProps))
  let stories := weeklyStories oneWeekAgo found
  match stories with
  | [] => pure ⟨false, 0, none⟩
  | story :: _ =>
    let moments ← (perform (DigestEffect.findByUserId input.userId) : DigestProc (List MomentProps))
    composeDigest shareLinkCreator input stories story (weeklyMoments oneWeekAgo moments)

/-! ## The container -/

/-- `container.createShareLinkUseCase` as a share link creator: the request leaves the owner `undefined`. -/
def shareLinkCreator (publicAppUrl : Text) (request : ShareLinkRequest) : DigestProc CreatedLink :=
  CreateShareLinkUseCase.execute zone publicAppUrl
    ⟨none, request.resourceId, request.type, request.maxViews, request.expiresInDays⟩

/-- `container.sendWeeklyDigestUseCase.execute` -/
def sendWeeklyDigest (publicAppUrl : Text) (input : WeeklyDigestInput) : DigestProc WeeklyDigestOutput :=
  SendWeeklyDigestUseCase.execute zone (shareLinkCreator zone publicAppUrl) input

end DreamWeaver.Digest
