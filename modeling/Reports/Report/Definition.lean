import Reports.Field.Basic
import Reports.Filter.Collection
import Reports.Sql.Query

/-! Definitions of reports, and the two that come with the library. -/
namespace Reports

structure Report where
  /-- Also identifies the report's filter collection. -/
  name : String
  /-- Source, joins, common tables and fixed predicates. -/
  template : Sql.Query
  fields : List Field
  filters : Filter.Context → Except Error Filter.Collection

namespace Report

open Reports.Sql (Query)
open Reports.Filter (Collection Handler)

def groupOptions : String := "SELECT g.id, g.name FROM \x7bgroups\x7d g ORDER BY g.name"

def categoryOptions : String :=
  "SELECT cc.id, cc.name FROM \x7bcourse_categories\x7d cc WHERE cc.visible = 1 ORDER BY cc.name"

def users : Report where
  name := "users"
  template :=
    (((Query.empty.readFrom "user" "u").join "groups_members" "gm" "gm.userid = u.id" .left).join
      "groups" "g" "g.id = gm.groupid" .left).filterBy (.new "u.deleted" [.ofInt 0] .equal)
  fields :=
    [ (Field.new "u_id" (some "u.id") "User ID").withAttribute .identifier,
      (Field.new "g_id" (some "g.id") "Group ID").withAttribute .identifier,
      { (Field.new "u_fullname" (some "u.firstname || ' ' || u.lastname") "Full name").withAttribute
          (.link
            { template := "/user/profile.php?id=\x7bu_id\x7d", labelField := some "u_fullname" })
        with sortSelect := some "u.lastname" },
      (Field.new "u_firstname" (some "u.firstname") "First name").setHidden true,
      (Field.new "u_lastname" (some "u.lastname") "Last name").setHidden true,
      (Field.new "u_username" (some "u.username") "Username").setHidden true,
      Field.new "u_email" (some "u.email") "Email",
      Field.new "g_name" (some "g.name") "Group",
      (Field.new "u_suspended" (some "u.suspended") "Status").withAttribute
        (.truth "Suspended" "Active"),
      { (Field.new "u_lastaccess" (some "u.lastaccess") "Last access").withAttribute (.timeAgo none)
        with sortDirection := .desc, visibility := .hidden } ]
  filters := fun ctx => (Collection.new "users" ctx).addAll
    [ ((Filter.new "group" "g.id").withLabel "Group").withHandler
        (.select (.new (.query ⟨groupOptions, ∅⟩))),
      ((Filter.new "lastname" "u.lastname").withLabel "Last name").withHandler .text,
      ((Filter.new "lastaccess" "u.lastaccess").withLabel "Last access").withHandler
        Handler.everyDate,
      ((Filter.new "suspended" "u.suspended").withLabel "Status").withHandler
        (.select (.new (.fixed [⟨.ofInt 0, "Active"⟩, ⟨.ofInt 1, "Suspended"⟩]))),
      (Filter.new "my_groups" "g.id").withHandler (.condition .myGroups),
      (Filter.new "current_user" "u.id").withHandler (.condition .loggedInUser) ]

def enrolmentCounts : String :=
  "SELECT e.courseid, COUNT(DISTINCT ue.userid) AS enrolled " ++
  "FROM \x7benrol\x7d e JOIN \x7buser_enrolments\x7d ue ON ue.enrolid = e.id GROUP BY e.courseid"

/-- Courses with their category and the number of their users. The choice of all categories
means every visible one, so that courses in hidden categories stay out. -/
def courses : Report where
  name := "courses"
  template :=
    (((Query.empty.setCommonTable "enrolment_counts" ⟨enrolmentCounts, ∅⟩).readFrom
      "course" "c").join
      "course_categories" "cc" "cc.id = c.category" .left).join
      "enrolment_counts" "ec" "ec.courseid = c.id" .left
  fields :=
    [ (Field.new "c_id" (some "c.id") "Course ID").withAttribute .identifier,
      (Field.new "c_fullname" (some "c.fullname") "Course").withAttribute
        (.link { template := "/course/view.php?id=\x7bc_id\x7d", labelField := some "c_fullname" }),
      Field.new "c_shortname" (some "c.shortname") "Short name",
      Field.new "cc_name" (some "cc.name") "Category",
      ((Field.new "cc_parent" (some "cc.parent") "Parent category").withAttribute
        (.linkedData ⟨"course_categories", "id", "name", ""⟩ ", ")).setHidden true,
      { (Field.new "c_startdate" (some "c.startdate") "Start date").withAttribute (.date "%Y-%m-%d")
        with sortDirection := .desc },
      Field.new "ec_enrolled" (some "COALESCE(ec.enrolled, 0)") "Enrolled",
      ((Field.new "c_visible" (some "c.visible") "Visibility").withAttribute
        (.truth "Shown" "Hidden")).setHidden true ]
  filters := fun ctx => do
    let dates ← Handler.newDate ["this_month", "this_year", "before_today"]
    (Collection.new "courses" ctx).addAll
      [ ((Filter.new "category" "c.category").withLabel "Category").withHandler
          (.select (.new (.query ⟨categoryOptions, ∅⟩) .expandOptions)),
        ((Filter.new "fullname" "c.fullname").withLabel "Course name").withHandler .text,
        ((Filter.new "startdate" "c.startdate").withLabel "Start date").withHandler dates,
        ((Filter.new "min_enrolled" "COALESCE(ec.enrolled, 0)").withLabel
          "Minimum enrolments").withOperator .greaterOrEqual,
        (Filter.new "enrolled" "c.id").withHandler (.condition .enrolledCourses),
        (Filter.new "current_course" "c.id").withHandler (.condition .currentCourse) ]

def builtinNames : List String := ["users", "courses"]

def builtin? : String → Option Report
  | "users" => some users
  | "courses" => some courses
  | _ => none

end Report

end Reports
