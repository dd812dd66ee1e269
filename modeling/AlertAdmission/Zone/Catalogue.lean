import AlertAdmission.Zone.Season

/-!
A time zone database of some zones, for the program as it is run.

Their clocks are moved as they are in the years 2018 to 2030; of the changes before these years only
some are listed. A name matches exactly, with its capital letters.
-/

namespace AlertAdmission.Zone

def momentOf (year : Int) (month day hour minute : Nat) : Instant :=
  Instant.ofNanos
    (startOfDay (Date.toDays ⟨year, month, day⟩) + Span.ofMinutes (hour * 60 + minute))

def changeAt (year : Int) (month day hour minute : Nat) (offset : Int) : OffsetChange :=
  ⟨momentOf year month day hour minute, Span.ofSeconds offset⟩

def listed (name : String) (initial : Int) (changes : List OffsetChange) : Zone :=
  ⟨name, Span.ofSeconds initial, changes⟩

def sydney : Zone :=
  Season.zone ⟨36000, 3600, ⟨10, .afterFirst 0, 120, .standard⟩, ⟨4, .afterFirst 0, 180, .advanced⟩⟩
    "Australia/Sydney" 2008

/-- The zone of Lord Howe Island, where clocks move by half an hour. -/
def lordHowe : Zone :=
  Season.zone ⟨37800, 1800, ⟨10, .afterFirst 0, 120, .standard⟩, ⟨4, .afterFirst 0, 120, .advanced⟩⟩
    "Australia/Lord_Howe" 2008

def chatham : Zone :=
  Season.zone ⟨45900, 3600, ⟨9, .last, 165, .standard⟩, ⟨4, .afterFirst 0, 225, .advanced⟩⟩
    "Pacific/Chatham" 2007

/-- The zone of São Paulo, whose last period of advanced time ended in 2019. -/
def saoPaulo : Zone :=
  listed "America/Sao_Paulo" (-10800)
    [changeAt 2017 10 15 3 0 (-7200), changeAt 2018 2 18 2 0 (-10800),
     changeAt 2018 11 4 3 0 (-7200), changeAt 2019 2 17 2 0 (-10800)]

/-- The zone of Samoa: on 2011-12-30 it moved over the date line, so that its calendars left that
day out, and it put its clocks forward every southern summer until 2021. -/
def apia : Zone :=
  let summer : Season :=
    ⟨46800, 3600, ⟨9, .last, 180, .standard⟩, ⟨4, .afterFirst 0, 240, .advanced⟩⟩
  listed "Pacific/Apia" (-39600)
    ([changeAt 2011 9 24 14 0 (-36000), changeAt 2011 12 30 10 0 50400,
      changeAt 2012 3 31 14 0 46800] ++
      (summer.changes 2012 10).filter fun change =>
        momentOf 2012 4 1 0 0 < change.instant && change.instant < momentOf 2021 4 4 0 0)

def casey : Zone :=
  listed "Antarctica/Casey" 28800
    [changeAt 2009 10 17 18 0 39600, changeAt 2010 3 4 15 0 28800,
     changeAt 2011 10 27 18 0 39600, changeAt 2012 2 21 6 0 28800,
     changeAt 2016 10 21 16 0 39600, changeAt 2018 3 10 17 0 28800,
     changeAt 2018 10 6 20 0 39600, changeAt 2019 3 16 16 0 28800,
     changeAt 2019 10 3 19 0 39600, changeAt 2020 3 7 16 0 28800,
     changeAt 2020 10 3 16 1 39600, changeAt 2021 3 13 13 0 28800,
     changeAt 2021 10 2 16 1 39600, changeAt 2022 3 12 13 0 28800,
     changeAt 2022 10 1 16 1 39600, changeAt 2023 3 8 16 0 28800]

/-- The zone of Davis Station, which was empty before 1957 and again from 1964 to 1969. -/
def davis : Zone :=
  listed "Antarctica/Davis" 0
    [changeAt 1957 1 13 0 0 25200, changeAt 1964 10 31 17 0 0, changeAt 1969 2 1 0 0 25200,
     changeAt 2009 10 17 19 0 18000, changeAt 2010 3 10 15 0 25200,
     changeAt 2011 10 27 19 0 18000, changeAt 2012 2 21 15 0 25200]

def catalogue : List Zone :=
  [utc, constant "Etc/UTC" 0, constant "GMT" 0, constant "Etc/GMT+5" (-18000),
   (Season.northAmerican (-18000)).zone "America/New_York" 2007,
   (Season.northAmerican (-21600)).zone "America/Chicago" 2007,
   (Season.northAmerican (-28800)).zone "America/Los_Angeles" 2007,
   (Season.northAmerican (-12600)).zone "America/St_Johns" 2007,
   saoPaulo, casey, davis,
   constant "Asia/Tokyo" 32400, constant "Asia/Kolkata" 19800,
   listed "Asia/Kathmandu" 19800 [changeAt 1985 12 31 18 30 20700],
   sydney, lordHowe,
   (Season.european 0).zone "Europe/London" 1996,
   (Season.european 3600).zone "Europe/Berlin" 1996,
   (Season.european 3600).zone "Europe/Paris" 1996,
   apia, chatham,
   listed "Pacific/Kiritimati" (-38400)
     [changeAt 1979 10 1 10 40 (-36000), changeAt 1994 12 31 10 0 50400],
   constant "Pacific/Pago_Pago" (-39600)]

instance : ZoneDatabase where
  find? name := catalogue.find? fun z => z.name == name

end AlertAdmission.Zone
