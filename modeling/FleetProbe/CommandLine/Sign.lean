import FleetProbe.Text.Basic
import FleetProbe.Text.Classes
/-!
Signs that can be written by their names between colons, as the terminal shows them.
-/

namespace FleetProbe.CommandLine.Sign

/-- Signs by name. -/
def table : List (String × String) :=
  [("smile", "😄"), ("smiley", "😃"), ("grinning", "😀"), ("grin", "😁"), ("joy", "😂"),
    ("laughing", "😆"), ("satisfied", "😆"), ("sweat_smile", "😅"), ("wink", "😉"), ("blush", "😊"),
    ("yum", "😋"), ("relieved", "😌"), ("heart_eyes", "😍"), ("sunglasses", "😎"), ("smirk", "😏"),
    ("neutral_face", "😐"), ("expressionless", "😑"), ("unamused", "😒"), ("sweat", "😓"),
    ("pensive", "😔"), ("confused", "😕"), ("kissing_heart", "😘"), ("disappointed", "😞"),
    ("worried", "😟"), ("angry", "😠"), ("rage", "😡"), ("cry", "😢"), ("triumph", "😤"),
    ("fearful", "😨"), ("weary", "😩"), ("sleepy", "😪"), ("tired_face", "😫"), ("sob", "😭"),
    ("scream", "😱"), ("astonished", "😲"), ("flushed", "😳"), ("sleeping", "😴"),
    ("dizzy_face", "😵"), ("mask", "😷"), ("innocent", "😇"), ("thinking_face", "🤔"),
    ("grinning_face", "😀"), ("winking_face", "😉"), ("crying_face", "😢"), ("smiling_imp", "😈"),
    ("imp", "👿"), ("skull", "💀"), ("ghost", "👻"), ("alien", "👽"), ("robot", "🤖"),
    ("hankey", "💩"), ("poop", "💩"), ("pile_of_poo", "💩"), ("vampire", "🧛"),
    ("see_no_evil", "🙈"), ("hear_no_evil", "🙉"), ("speak_no_evil", "🙊"), ("heart", "❤"),
    ("red_heart", "❤"), ("blue_heart", "💙"), ("green_heart", "💚"), ("yellow_heart", "💛"),
    ("purple_heart", "💜"), ("broken_heart", "💔"), ("sparkling_heart", "💖"), ("100", "💯"),
    ("boom", "💥"), ("collision", "💥"), ("anger", "💢"), ("dizzy", "💫"), ("sweat_drops", "💦"),
    ("dash", "💨"), ("bomb", "💣"), ("zzz", "💤"), ("wave", "👋"), ("ok_hand", "👌"), ("v", "✌"),
    ("point_left", "👈"), ("point_right", "👉"), ("point_up", "☝"), ("point_down", "👇"),
    ("+1", "👍"), ("thumbsup", "👍"), ("thumbs_up", "👍"), ("-1", "👎"), ("thumbsdown", "👎"),
    ("thumbs_down", "👎"), ("fist", "✊"), ("facepunch", "👊"), ("punch", "👊"), ("clap", "👏"),
    ("raised_hands", "🙌"), ("open_hands", "👐"), ("pray", "🙏"), ("muscle", "💪"), ("ear", "👂"),
    ("nose", "👃"), ("eyes", "👀"), ("tongue", "👅"), ("lips", "👄"), ("baby", "👶"), ("boy", "👦"),
    ("girl", "👧"), ("man", "👨"), ("woman", "👩"), ("monkey_face", "🐵"), ("monkey", "🐒"),
    ("dog", "🐶"), ("cat", "🐱"), ("tiger", "🐯"), ("horse", "🐴"), ("cow", "🐮"), ("pig", "🐷"),
    ("mouse", "🐭"), ("hamster", "🐹"), ("rabbit", "🐰"), ("bear", "🐻"), ("koala", "🐨"),
    ("panda_face", "🐼"), ("raccoon", "🦝"), ("chicken", "🐔"), ("bird", "🐦"), ("penguin", "🐧"),
    ("frog", "🐸"), ("snake", "🐍"), ("turtle", "🐢"), ("whale", "🐳"), ("dolphin", "🐬"),
    ("fish", "🐟"), ("octopus", "🐙"), ("snail", "🐌"), ("bug", "🐛"), ("ant", "🐜"), ("bee", "🐝"),
    ("honeybee", "🐝"), ("beetle", "🐞"), ("rose", "🌹"), ("sunflower", "🌻"), ("tulip", "🌷"),
    ("cactus", "🌵"), ("palm_tree", "🌴"), ("evergreen_tree", "🌲"), ("apple", "🍎"),
    ("banana", "🍌"), ("cherries", "🍒"), ("grapes", "🍇"), ("watermelon", "🍉"), ("lemon", "🍋"),
    ("pizza", "🍕"), ("hamburger", "🍔"), ("fries", "🍟"), ("cake", "🍰"), ("cookie", "🍪"),
    ("coffee", "☕"), ("tea", "🍵"), ("beer", "🍺"), ("beers", "🍻"), ("rocket", "🚀"), ("car", "🚗"),
    ("bus", "🚌"), ("train", "🚋"), ("bike", "🚲"), ("airplane", "✈"), ("ship", "🚢"),
    ("anchor", "⚓"), ("construction", "🚧"), ("house", "🏠"), ("office", "🏢"), ("hospital", "🏥"),
    ("school", "🏫"), ("watch", "⌚"), ("hourglass", "⌛"), ("alarm_clock", "⏰"), ("sunny", "☀"),
    ("cloud", "☁"), ("umbrella", "☔"), ("zap", "⚡"), ("snowflake", "❄"), ("fire", "🔥"),
    ("droplet", "💧"), ("ocean", "🌊"), ("rainbow", "🌈"), ("star", "⭐"), ("star2", "🌟"),
    ("sparkles", "✨"), ("tada", "🎉"), ("balloon", "🎈"), ("gift", "🎁"), ("trophy", "🏆"),
    ("soccer", "⚽"), ("basketball", "🏀"), ("dart", "🎯"), ("game_die", "🎲"), ("art", "🎨"),
    ("musical_note", "🎵"), ("notes", "🎶"), ("guitar", "🎸"), ("bell", "🔔"), ("mega", "📣"),
    ("computer", "💻"), ("phone", "☎"), ("telephone", "☎"), ("iphone", "📱"), ("battery", "🔋"),
    ("bulb", "💡"), ("flashlight", "🔦"), ("book", "📖"), ("books", "📚"), ("newspaper", "📰"),
    ("moneybag", "💰"), ("dollar", "💵"), ("email", "✉"), ("envelope", "✉"), ("package", "📦"),
    ("pencil2", "✏"), ("memo", "📝"), ("file_folder", "📁"), ("calendar", "📆"), ("date", "📅"),
    ("clipboard", "📋"), ("pushpin", "📌"), ("paperclip", "📎"), ("scissors", "✂"), ("lock", "🔒"),
    ("unlock", "🔓"), ("key", "🔑"), ("hammer", "🔨"), ("wrench", "🔧"), ("gear", "⚙"),
    ("link", "🔗"), ("pill", "💊"), ("door", "🚪"), ("toilet", "🚽"), ("warning", "⚠"),
    ("no_entry", "⛔"), ("recycle", "♻"), ("white_check_mark", "✅"), ("heavy_check_mark", "✔"),
    ("x", "❌"), ("cross_mark", "❌"), ("question", "❓"), ("exclamation", "❗"), ("bangbang", "‼"),
    ("o", "⭕"), ("a", "🅰"), ("b", "🅱"), ("ab", "🆎"), ("m", "Ⓜ"), ("id", "🆔"), ("ok", "🆗"),
    ("cool", "🆒"), ("new", "🆕"), ("free", "🆓"), ("ng", "🆖"), ("sos", "🆘"), ("up", "🆙"),
    ("vs", "🆚"), ("crown", "👑"), ("gem", "💎"), ("ring", "💍"), ("tv", "📺"), ("camera", "📷"),
    ("mag", "🔍"), ("copyright", "©"), ("registered", "®"), ("tm", "™")]

/-- How a sign is to be drawn, which its name may end with. -/
def variants : List (String × Nat) := [("-emoji", 0xfe0f), ("-text", 0xfe0e)]

/-- The sign under a name, in whatever case. -/
def ofName? (name : List Nat) : Option (List Nat) :=
  let letters := name.map fun p => if 0x41 ≤ p ∧ p ≤ 0x5a then p + 0x20 else p
  let points (s : String) : List Nat := s.toList.map Char.toNat
  let variant := variants.find? fun e => (points e.1).isSuffixOf letters
  let bare := match variant with
    | some (ending, _) => letters.take (letters.length - ending.length)
    | none => letters
  (table.find? fun e => points e.1 == bare).map fun e =>
    points e.2 ++ (variant.map Prod.snd).toList

/-- Puts signs in the place of their names. `fuel` bounds the characters. -/
def replace : (fuel : Nat) → List Nat → List Nat
  | 0, ps => ps
  | _, [] => []
  | fuel + 1, p :: ps =>
    let name := ps.takeWhile fun q => q != 0x3a && !Text.isBlank q
    match p, ps.drop name.length with
    | 0x3a, 0x3a :: rest => (ofName? name).getD (0x3a :: name ++ [0x3a]) ++ replace fuel rest
    | p, _ => p :: replace fuel ps

end FleetProbe.CommandLine.Sign
