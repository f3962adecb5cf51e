import ResourceBuild.Time.Locale

/-!
# The locales of the program

The program is run with some common locales. Nothing else depends on which there are.
-/

namespace ResourceBuild.Time.Locales

/-- The words of Hindi; only those for the halves of the day differ from English in its patterns. -/
def hindi : Vocabulary := { english with morning := "पूर्वाह्न", afternoon := "अपराह्न" }

def arabic : Vocabulary := { english with
  weekdays := ["الأحد", "الإثنين", "الثلاثاء", "الأربعاء", "الخميس", "الجمعـة", "السبت"]
  months := ["يناير", "فبراير", "مارس", "أبريل", "مايو", "يونيو", "يوليو", "أغسطس", "سبتمبر",
    "أكتوبر", "نوفمبر", "ديسمبر"] }

/-- The locales that the program is set up with. -/
def common : Locales where
  all := [
    { name := "POSIX", datePattern := "%m/%d/%y", timePattern := "%H:%M:%S" },
    { name := "en_US", datePattern := "%m/%d/%Y", timePattern := "%I:%M:%S %p" },
    { name := "en_GB", datePattern := "%d/%m/%y", timePattern := "%T" },
    { name := "en_CA", datePattern := "%Y-%m-%d", timePattern := "%I:%M:%S %p" },
    { name := "en_HK", datePattern := "%A, %B %d, %Y", timePattern := "%I:%M:%S %p %Z" },
    { name := "en_IN", datePattern := "%d/%m/%y", timePattern := "%I:%M:%S %p %Z" },
    { name := "de_DE", datePattern := "%d.%m.%Y", timePattern := "%T" },
    { name := "de_CH", datePattern := "%d.%m.%Y", timePattern := "%T" },
    { name := "ru_RU", datePattern := "%d.%m.%Y", timePattern := "%T" },
    { name := "de_AT", datePattern := "%Y-%m-%d", timePattern := "%T" },
    { name := "sv_SE", datePattern := "%Y-%m-%d", timePattern := "%T" },
    { name := "fr_FR", datePattern := "%d/%m/%Y", timePattern := "%T" },
    { name := "pt_BR", datePattern := "%d/%m/%Y", timePattern := "%T" },
    { name := "ja_JP", datePattern := "%Y年%m月%d日", timePattern := "%H時%M分%S秒" },
    { name := "ko_KR", datePattern := "%Y년 %m월 %d일", timePattern := "%H시 %M분 %S초" },
    { name := "zh_CN", datePattern := "%Y年%m月%d日", timePattern := "%H时%M分%S秒" },
    { name := "zh_TW", datePattern := "西元%Y年%m月%d日", timePattern := "%H時%M分%S秒" },
    { name := "sv_FI", datePattern := "%d.%m.%Y", timePattern := "%H.%M.%S" },
    { name := "nl_NL", datePattern := "%d-%m-%y", timePattern := "%T" },
    { name := "nl_NL@euro", datePattern := "%d-%m-%y", timePattern := "%T" },
    { name := "cs_CZ", datePattern := "%-d.%-m.%Y", timePattern := "%H:%M:%S" },
    { name := "hi_IN", datePattern := "%-d/%-m/%y", timePattern := "%I:%M:%S %p %Z",
      words := hindi },
    { name := "ar_SA", datePattern := "%A %e %B %Y", timePattern := "%k:%M:%S", words := arabic },
    { name := "sr_RS@latin", datePattern := "%d.%m.%Y.", timePattern := "%T" }]
  distinct := by decide +kernel

end ResourceBuild.Time.Locales
